import ForgeQuery.Log.Filter
import ForgeQuery.Log.Line
import ForgeQuery.Command.Options
import ForgeQuery.Configuration.Shape
import ForgeQuery.Configuration.Text
import ForgeQuery.Execution.Executor

/-!
# A run of the command

The command executes one document on the store of one configuration and prints the response. It
goes through stages, of which the first to fail decides: configuration, document, variables, login.
A response with errors is a success all the same; it is what was asked for.

Everything that the command takes from its surroundings is handed in, and everything that it gives
back comes out as a value, `Conclusion`.
-/

namespace ForgeQuery

/-! ## The command -/

/-- What the command is called. -/
def commandName : String := "devhub-graphql"

/-- The version of the command. -/
def commandVersion : String := "0.1.0"

/-! ## What goes in and what comes out -/

/-- What a run takes from its surroundings. -/
structure Surroundings where
  /-- the words of the command line -/
  arguments : List String
  /-- the variables of the environment -/
  environment : String → Option String
  /-- the contents of the files that can be read -/
  file : String → Option (List UInt8)
  /-- the standard input -/
  input : List UInt8

/-- Why a run has failed. -/
inductive Failure where
  /-- the log filter cannot be read -/
  | logFilter
  /-- the configuration cannot be loaded -/
  | configuration (path : String)
  /-- the standard input is no text -/
  | input
  /-- the file with the document cannot be read -/
  | document (path : String)
  /-- there is no document -/
  | noDocument
  /-- the variables are no object -/
  | bindings
  /-- the credentials are those of nobody -/
  | credentials (username : String)
  deriving DecidableEq

/-- What is said about a failure. -/
def Failure.message : Failure → String
  | logFilter => "could not parse log configuration"
  | configuration path => "could not load " ++ path
  | input => "could not read stdin"
  | document path => "could not read " ++ path
  | noDocument => "a document is required, use --query or --query-file"
  | bindings => "--variables must be a JSON object"
  | credentials username => "invalid credentials for " ++ username

/-- How a run ends. -/
inductive Ending where
  /-- with an output -/
  | success (output : String)
  /-- with a failure -/
  | failure (f : Failure)
  /-- with the help, whose text is that of the library that reads the command line -/
  | help
  /-- before it starts, the command line making no sense -/
  | misuse
  deriving DecidableEq

namespace Ending

/-- The exit code. -/
def code : Ending → Nat
  | success _ => 0
  | failure _ => 1
  | help => 0
  | misuse => 2

/-- What is printed on the standard output, the help left out. -/
def output : Ending → String
  | success text => text
  | _ => ""

/-- What is reported as the error. -/
def message? : Ending → Option String
  | failure f => some f.message
  | _ => none

end Ending

/-- What has come of a run. -/
structure Conclusion where
  /-- how it has ended -/
  ending : Ending
  /-- the reports that are logged, in order -/
  log : List Report

/-! ## Stages -/

/-- A part of a run: it may fail, and what it has reported before stays reported. -/
abbrev Stage : Type → Type := ExceptT Failure (StateM (List Report))

namespace Stage

/-- Report something that happens in no span. -/
def report (e : Event) : Stage Unit := modify (· ++ [⟨e, none⟩])

/-- The configuration at a path, or the standard one. -/
def configuration (w : Surroundings) (o : Options) : Stage Configuration :=
  match o.configuration with
  | none => pure .standard
  | some path => do
    report (.loadingConfiguration path)
    match (w.file path).map Configuration.ofBytes with
    | some (.ok c) => return c
    | _ => throw (.configuration path)

/-- The text that bytes are. -/
def text? (bytes : List UInt8) : Option String :=
  (Symbol.text? (Symbol.ofBytes bytes)).map String.ofList

/-- The document: given, in a file, or on the standard input. -/
def document (w : Surroundings) (o : Options) : Except Failure String :=
  match o.query, o.queryFile with
  | some query, _ => .ok query
  | none, some path =>
    if path = Options.inputPath then
      match text? w.input with
      | some query => .ok query
      | none => .error .input
    else
      match (w.file path).bind text? with
      | some query => .ok query
      | none => .error (.document path)
  | none, none => .error .noDocument

/-- The variables of the request: an object, empty when there are none. -/
def bindings (o : Options) : Except Failure Object :=
  match o.bindings with
  | none => .ok ∅
  | some t =>
    match Json.readWith (Json.readObjectValue Json.nestingLimit) (Symbol.ofText t.toList) with
    | .ok bindings => .ok bindings
    | .error _ => .error .bindings

/-- The request. -/
def request (w : Surroundings) (o : Options) : Except Failure Request := do
  let query ← document w o
  let bindings ← bindings o
  return { Request.ofQuery query with bindings }

/-- The token of the only session of a run. -/
def token : String := "session"

/-- The open sessions and the token to use, if there is one. Only a name with a password logs
in. -/
def login (store : Store) (o : Options) : Stage (Sessions × Option String) :=
  match o.username, o.password with
  | some username, some password =>
    match store.authenticate username password with
    | some user => do
      report (.sessionOpened user)
      return (Sessions.empty.grant token user, some token)
    | none => do
      report (.invalidCredentials username)
      throw (.credentials username)
  | _, _ => pure (.empty, none)

/-- The response to the document that the options give. -/
def response (w : Surroundings) (o : Options) : Stage Response := do
  let c ← configuration w o
  let request ← ExceptT.mk (pure (request w o))
  let store := c.seed.store
  let (sessions, token) ← login store o
  let outcome := executeWithSession c.policy store sessions request token
  modify (· ++ outcome.reports)
  return outcome.result

end Stage

/-! ## The run -/

/-- Execute the command with given options. -/
def runOptions (w : Surroundings) (o : Options) : Conclusion :=
  if o.schema then ⟨.success (Shape.configuration.indented ++ "\n"), []⟩
  else
    match LogFilter.ofText? o.log.toList with
    | none => ⟨.failure .logFilter, []⟩
    | some filter =>
      let (result, reports) := (Stage.response w o).run.run []
      let ending : Ending :=
        match result with
        | .ok response => .success (response.toJson.indented ++ "\n")
        | .error f => .failure f
      ⟨ending, reports.filterMap filter.shown?⟩

/-- Execute the command. -/
def runCommand (w : Surroundings) : Conclusion :=
  match Options.parse w.environment w.arguments with
  | .error .misuse => ⟨.misuse, []⟩
  | .error .version => ⟨.success (commandName ++ " " ++ commandVersion ++ "\n"), []⟩
  | .error .help => ⟨.help, []⟩
  | .ok o => runOptions w o

end ForgeQuery
