import ForgeQuery.Text.Cut

/-!
# Options of the command line

A command line is a list of words. A word that starts with a dash names a setting, which takes a
value, or a switch, which takes none; any other word is the value of the setting in front of it,
and is misplaced without one. No setting and no switch may be given twice.

* `--query TEXT`, `--query=TEXT`, `-q TEXT`, `-qTEXT` and `-q=TEXT` all give a setting its value.
* A setting that is not given may take its value from a variable of the environment.
* `Options.parse` reads the words; asking for help or for the version ends reading at once.
-/

namespace ForgeQuery

/-! ## Settings and switches -/

/-- What takes a value. -/
inductive Setting where
  /-- which events are logged -/
  | log
  /-- the file with the configuration -/
  | configuration
  /-- the document -/
  | query
  /-- the file with the document -/
  | queryFile
  /-- the variables of the request -/
  | bindings
  /-- the name to log in with -/
  | username
  /-- the password to log in with -/
  | password
  deriving DecidableEq

namespace Setting

/-- Every setting. -/
def all : List Setting := [log, configuration, query, queryFile, bindings, username, password]

/-- The long name of a setting. -/
def long : Setting → String
  | log => "log"
  | configuration => "config"
  | query => "query"
  | queryFile => "query-file"
  | bindings => "variables"
  | username => "username"
  | password => "password"

/-- The letter for a setting. -/
def letter? : Setting → Option Char
  | configuration => some 'c'
  | query => some 'q'
  | username => some 'u'
  | password => some 'p'
  | _ => none

/-- The environment variable that a setting falls back on. -/
def fallback? : Setting → Option String
  | log => some "DEVHUB_GRAPHQL_LOG"
  | configuration => some "DEVHUB_GRAPHQL_CONFIG_PATH"
  | password => some "DEVHUB_GRAPHQL_PASSWORD"
  | _ => none

/-- Whether a value may be given to a setting: a path may not be empty. -/
def accepts : Setting → String → Bool
  | configuration, value | queryFile, value => value != ""
  | _, _ => true

end Setting

/-- What takes no value. -/
inductive Switch where
  /-- print the shape of configuration files -/
  | schema
  /-- print the version -/
  | version
  /-- print help -/
  | help
  deriving DecidableEq

namespace Switch

/-- Every switch. -/
def all : List Switch := [schema, version, help]

/-- The long name of a switch. -/
def long : Switch → String
  | schema => "schema"
  | version => "version"
  | help => "help"

/-- The letter for a switch. -/
def letter? : Switch → Option Char
  | schema => none
  | version => some 'V'
  | help => some 'h'

end Switch

/-! ## Words -/

/-- What a word of a command line is. -/
inductive Word where
  /-- a setting, with its value if that is in the same word -/
  | setting (s : Setting) (value : Option String)
  /-- a switch -/
  | switch (s : Switch)
  /-- a word without a dash, or a dash alone -/
  | plain (word : String)
  /-- two dashes, behind which no names follow -/
  | terminator
  /-- a name that is not known, or a switch with a value -/
  | unknown
  deriving DecidableEq

namespace Word

/-- The word behind two dashes: a name, and behind an equals sign a value. -/
def ofLong (t : Text) : Word :=
  let (name, value) : Text × Option Text :=
    match Text.splitFirst? '=' t with
    | some (name, value) => (name, some value)
    | none => (t, none)
  match Setting.all.find? fun s => s.long.toList == name with
  | some s => .setting s (value.map String.ofList)
  | none =>
    match Switch.all.find? fun s => s.long.toList == name with
    | some s => if value.isNone then .switch s else .unknown
    | none => .unknown

/-- The word behind a dash that starts with a given letter. The value of a setting may follow, with
an equals sign in between or not. Nothing matters behind the letter of a switch, all of which end
the reading of the command line. -/
def ofLetter (letter : Char) (rest : Text) : Word :=
  match Setting.all.find? fun s => s.letter? == some letter with
  | some s =>
    match rest with
    | [] => .setting s none
    | '=' :: value => .setting s (some (String.ofList value))
    | value => .setting s (some (String.ofList value))
  | none =>
    match Switch.all.find? fun s => s.letter? == some letter with
    | some s => .switch s
    | none => .unknown

/-- What a word is. -/
def ofString (word : String) : Word :=
  match word.toList with
  | ['-', '-'] => .terminator
  | '-' :: '-' :: name => ofLong name
  | '-' :: letter :: rest => ofLetter letter rest
  | _ => .plain word

end Word

example : Word.ofString "-q=x" = .setting .query (some "x") := by decide +kernel

example : Word.ofString "--query-file=" = .setting .queryFile (some "") := by decide +kernel

example : Word.ofString "-" = .plain "-" := by decide +kernel

/-! ## Reading a command line -/

/-- Why a command line asks for nothing to be executed. -/
inductive Halt where
  /-- it makes no sense -/
  | misuse
  /-- it asks for the version -/
  | version
  /-- it asks for help -/
  | help
  deriving DecidableEq

/-- What the words of a command line have given. -/
structure Given where
  /-- the settings with their values -/
  values : List (Setting × String)
  /-- whether the shape of configuration files is asked for -/
  schema : Bool
  deriving DecidableEq

namespace Given

/-- Nothing has been given. -/
def nothing : Given := ⟨[], false⟩

/-- The value of a setting. -/
def value? (g : Given) (s : Setting) : Option String := g.values.lookup s

/-- Give a setting a value it accepts, once. -/
def set (g : Given) (s : Setting) (value : String) : Except Halt Given :=
  if s.accepts value && (g.value? s).isNone then .ok { g with values := (s, value) :: g.values }
  else .error .misuse

/-- Take in the words of a command line; `waiting` is the setting that the last word named without
a value. -/
def take (waiting : Option Setting) (g : Given) : List Word → Except Halt Given
  | [] => if waiting.isNone then .ok g else .error .misuse
  | word :: words =>
    match waiting, word with
    | some s, .plain value => do take none (← g.set s value) words
    | none, .setting s (some value) => do take none (← g.set s value) words
    | none, .setting s none => take (some s) g words
    | none, .switch .version => .error .version
    | none, .switch .help => .error .help
    | none, .switch .schema =>
      if g.schema then .error .misuse else take none { g with schema := true } words
    | none, .terminator => if words.isEmpty then .ok g else .error .misuse
    | _, _ => .error .misuse

end Given

/-! ## Options -/

/-- What a command line asks for. -/
structure Options where
  /-- which events are logged -/
  log : String
  /-- the path of the configuration -/
  configuration : Option String
  /-- whether the shape of configuration files is asked for -/
  schema : Bool
  /-- the document -/
  query : Option String
  /-- the path of the document -/
  queryFile : Option String
  /-- the variables of the request -/
  bindings : Option String
  /-- the name to log in with -/
  username : Option String
  /-- the password to log in with -/
  password : Option String
  deriving DecidableEq

namespace Options

/-- The value of a setting: the one given, or else that of its environment variable. -/
def value? (environment : String → Option String) (g : Given) (s : Setting) : Option String :=
  (g.value? s).or (s.fallback?.bind environment)

/-- The options that settings and environment come to. The document is given in one way at most,
and whoever gives a name needs a password. -/
def ofGiven (environment : String → Option String) (g : Given) : Except Halt Options :=
  let value? := value? environment g
  let o : Options := {
    log := (value? .log).getD "info"
    configuration := value? .configuration
    schema := g.schema
    query := value? .query
    queryFile := value? .queryFile
    bindings := value? .bindings
    username := value? .username
    password := value? .password }
  if o.configuration == some "" || (o.query.isSome && o.queryFile.isSome)
      || (o.username.isSome && o.password.isNone) then .error .misuse
  else .ok o

/-- Read a command line. -/
def parse (environment : String → Option String) (words : List String) : Except Halt Options := do
  ofGiven environment (← Given.nothing.take none (words.map Word.ofString))

/-- The path that stands for the standard input. -/
def inputPath : String := "-"

/-- The paths of the files that are read. -/
def files (o : Options) : List String :=
  o.configuration.toList ++ (o.queryFile.filter (· != inputPath)).toList

/-- Whether the standard input is read. -/
def readsInput (o : Options) : Bool := o.query.isNone && o.queryFile == some inputPath

end Options

end ForgeQuery
