import ForgeQuery.Execution.Error
import ForgeQuery.Forge.Caller
import ForgeQuery.Query.Document

/-!
# Events

What a run reports about itself besides its answer. An `Event` is one of a fixed set of
happenings; its level, its message, its source and its fields follow from it. Events that happen
while a document is executed are reported inside a `Span`, which tells the kind and name of the
operation and the caller.
-/

namespace ForgeQuery

/-! ## Levels -/

/-- How much an event matters. -/
inductive Level where
  /-- a failure -/
  | error
  /-- something suspicious -/
  | warn
  /-- a change that is worth keeping -/
  | info
  /-- a detail -/
  | debug
  /-- the finest detail -/
  | trace
  deriving DecidableEq

namespace Level

/-- The name of a level. -/
def name : Level → String
  | error => "ERROR"
  | warn => "WARN"
  | info => "INFO"
  | debug => "DEBUG"
  | trace => "TRACE"

/-- The place of a level, the weightiest first. -/
def rank : Level → Nat
  | error => 1
  | warn => 2
  | info => 3
  | debug => 4
  | trace => 5

end Level

/-! ## Events -/

/-- Something that a run reports. -/
inductive Event where
  /-- a configuration file is about to be read -/
  | loadingConfiguration (path : String)
  /-- a login with credentials of nobody -/
  | invalidCredentials (username : String)
  /-- a login -/
  | sessionOpened (user : String)
  /-- a document came with variable definitions -/
  | definitionsIgnored (definitions : String)
  /-- a unit of the body is no field expression -/
  | malformedUnit (unit : String)
  /-- a unit names no root field of the operation -/
  | unknownField (field : String)
  /-- a field needs a caller and there is none -/
  | unauthenticatedAccess (field : String)
  /-- the policy keeps a repository from the caller -/
  | readRefused (caller repo : String)
  /-- a promotion that nothing guards; whether a guard would have refused it -/
  | promotionUnguarded (caller : String) (requested : Option String) (guarded : Bool)
  /-- a user has got a new role -/
  | roleChanged (caller target : String) (role : Option String)
  /-- a sub-selection took nothing, and the whole entity is the answer -/
  | nothingSelected (typeName : String) (sub : String)
  /-- a request was ended -/
  | executionFailed (error : ExecutionError)
  deriving DecidableEq

/-- A value in a field of an event. -/
inductive FieldValue where
  /-- a text -/
  | text (s : String)
  /-- a truth value -/
  | flag (b : Bool)
  deriving DecidableEq

namespace Event

/-- The level of an event. -/
def level : Event → Level
  | invalidCredentials _ | unauthenticatedAccess _ => .warn
  | sessionOpened _ | roleChanged .. => .info
  | definitionsIgnored _ => .trace
  | _ => .debug

/-- The message of an event. -/
def message : Event → String
  | loadingConfiguration _ => "loading configuration"
  | invalidCredentials _ => "invalid credentials"
  | sessionOpened _ => "session opened"
  | definitionsIgnored _ => "variable definitions are not interpreted"
  | malformedUnit _ => "skipping malformed field expression"
  | unknownField _ => "skipping unknown root field"
  | unauthenticatedAccess _ => "unauthenticated access attempt"
  | readRefused .. => "repository read refused"
  | promotionUnguarded .. => "promotion guard is not enforced"
  | roleChanged .. => "user role changed"
  | nothingSelected .. => "no selected field matched, returning every field"
  | executionFailed _ => "execution failed"

/-- The part of the program that an event comes from. -/
def source : Event → String
  | loadingConfiguration _ => "devhub_graphql::configuration"
  | invalidCredentials _ | sessionOpened _ => "devhub_graphql::session"
  | definitionsIgnored _ | malformedUnit _ | unknownField _ | unauthenticatedAccess _
  | executionFailed _ => "devhub_graphql::execution"
  | readRefused .. => "devhub_graphql::resolvers::query"
  | promotionUnguarded .. => "devhub_graphql::authorization"
  | roleChanged .. => "devhub_graphql::resolvers::mutation"
  | nothingSelected .. => "devhub_graphql::spec::selection"

/-- The fields of an event besides its message, some of which may be without a value. -/
def slots : Event → List (String × Option FieldValue)
  | loadingConfiguration path => [("path", some (.text path))]
  | invalidCredentials username => [("username", some (.text username))]
  | sessionOpened user => [("user", some (.text user))]
  | definitionsIgnored definitions => [("variables", some (.text definitions))]
  | malformedUnit unit => [("unit", some (.text unit))]
  | unknownField field => [("field", some (.text field))]
  | unauthenticatedAccess field => [("field", some (.text field))]
  | readRefused caller repo => [("caller", some (.text caller)), ("repo", some (.text repo))]
  | promotionUnguarded caller requested guarded =>
    [("caller", some (.text caller)), ("requested", requested.map .text),
      ("guarded", some (.flag guarded))]
  | roleChanged caller target role =>
    [("caller", some (.text caller)), ("target", some (.text target)), ("role", role.map .text)]
  | nothingSelected typeName sub =>
    [("type_name", some (.text typeName)), ("sub_selection", some (.text sub))]
  | executionFailed error =>
    [("error", some (.text error.message)),
      ("status", some (.text (toString error.status.code ++ " " ++ error.status.reason)))]

/-- The fields of an event that have a value. -/
def fields (e : Event) : List (String × FieldValue) :=
  e.slots.filterMap fun s => s.2.map fun v => (s.1, v)

/-- The names of the fields of an event, its message included. -/
def fieldNames (e : Event) : List String := "message" :: e.slots.map Prod.fst

end Event

/-! ## Spans -/

/-- The execution that an event belongs to. -/
structure Span where
  /-- the kind of the document -/
  kind : OperationKind
  /-- the name of the operation -/
  operation : Option String
  /-- the id of the caller -/
  caller : Option String
  deriving DecidableEq

namespace Span

/-- The name that spans go by. -/
def name : String := "execute"

/-- The level of spans. -/
def level : Level := .info

/-- The part of the program that spans come from. -/
def source : String := "devhub_graphql::execution"

/-- The names of the fields of spans. -/
def fieldNames : List String := ["graphql.operation.kind", "graphql.operation.name", "caller"]

/-- The values of the fields of a span, in the order of their names. -/
def fieldValues (s : Span) : List (Option String) := [some s.kind.name, s.operation, s.caller]

/-- The fields of a span that have a value. -/
def fields (s : Span) : List (String × String) :=
  (fieldNames.zip s.fieldValues).filterMap fun f => f.2.map fun v => (f.1, v)

end Span

/-- An event with the execution that it belongs to, if any. -/
structure Report where
  /-- what happened -/
  event : Event
  /-- inside which execution -/
  span : Option Span
  deriving DecidableEq

end ForgeQuery
