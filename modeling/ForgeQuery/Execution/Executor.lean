import ForgeQuery.Execution.Resolver
import ForgeQuery.Forge.Sessions
import ForgeQuery.Message.Request
import ForgeQuery.Message.Response
import ForgeQuery.Schema

/-!
# Executing documents

A document is executed unit by unit, in order. A unit that is no field expression, or names no root
field of the operation, is passed over; any other is resolved on the store as the units before it
left it, and its value goes into the data under the name of its root field. The first error ends
the document: the units behind it are not looked at, and what the units before it wrote stays.

* `step` — one unit; `runUnits` — a list of them, which is a left fold of `step`.
* `tryExecute` — a request on a store: its result, the store afterwards and the reports.
* `execute` — the same with the result as a response.
-/

namespace ForgeQuery

/-! ## Units -/

/-- Execute one unit: the data with the unit's value in it. -/
def step (kind : OperationKind) (ctx : Context) (data : Object) (unit : Text) : Run Object := do
  match FieldExpression.parse? unit with
  | none => do
    Run.report (.malformedUnit (String.ofList unit))
    return data
  | some field =>
    match RootField.ofName? kind field.name with
    | none => do
      Run.report (.unknownField field.name)
      return data
    | some root => do
      if root.requiresCaller && ctx.caller.isNone then
        Run.report (.unauthenticatedAccess root.name)
        throw (.unauthenticated root.name)
      let value ← root.resolve ctx field
      return data.insert root.name value

/-- Execute units one after the other. -/
def runUnits (kind : OperationKind) (ctx : Context) (units : List Text) (data : Object) :
    Run Object :=
  units.foldlM (step kind ctx) data

/-! ## Documents -/

/-- Execute a classified document. -/
def runDocument (doc : Document) (ctx : Context) : Run Object :=
  match doc.kind with
  | .introspection => pure Schema.introspection
  | kind => do
    match doc.definitions with
    | some definitions => Run.report (.definitionsIgnored definitions)
    | none => pure ()
    runUnits kind ctx (splitSelections doc.body) ∅

/-- What has come of a request: the result, the store afterwards, and the reports. -/
structure Outcome (α : Type) where
  /-- the result -/
  result : α
  /-- the store afterwards -/
  store : Store
  /-- the reports in order -/
  reports : List Report

/-- The document that a request carries. An empty text is as good as none. -/
def Request.document (r : Request) : Except ExecutionError Document :=
  match r.query with
  | none => .error .documentEmpty
  | some query =>
    if query = "" then .error .documentEmpty
    else
      match Document.parse? query.toList with
      | none => .error .documentUnparseable
      | some doc => .ok doc

/-- Execute a request on a store, for a caller or for nobody. -/
def tryExecute (policy : Policy) (store : Store) (request : Request) (caller : Option Caller) :
    Outcome (Except ExecutionError Object) :=
  match request.document with
  | .error e => ⟨.error e, store, []⟩
  | .ok doc =>
    let (result, progress) := (runDocument doc ⟨policy, caller⟩).run.run ⟨store, []⟩
    let span : Span := ⟨doc.kind, doc.name, caller.map Caller.id⟩
    ⟨result, progress.store, progress.events.map fun e => ⟨e, some span⟩⟩

/-- Execute a request and make a response of the result. A failure is reported once more, outside
the span of the execution. -/
def execute (policy : Policy) (store : Store) (request : Request) (caller : Option Caller) :
    Outcome Response :=
  let o := tryExecute policy store request caller
  let failure : List Report :=
    match o.result with
    | .ok _ => []
    | .error e => [⟨.executionFailed e, none⟩]
  ⟨.ofResult o.result, o.store, o.reports ++ failure⟩

/-- Execute a request for whoever holds a token, looked up once before the execution starts. -/
def executeWithSession (policy : Policy) (store : Store) (sessions : Sessions) (request : Request)
    (token : Option String) : Outcome Response :=
  execute policy store request (token.bind (sessions.lookup? store))

end ForgeQuery
