import ForgeQuery.Json.Printer
import ForgeQuery.Json.Record

/-!
# Requests

A request carries a document. The name of an operation and variables are taken for the sake of
clients that send them; nothing looks at them afterwards.
-/

namespace ForgeQuery

/-- A request. -/
structure Request where
  /-- the text of the document -/
  query : Option String
  /-- the operation that is meant -/
  operationName : Option String
  /-- values of variables -/
  bindings : Object

namespace Request

/-- The request with nothing in it. -/
def empty : Request := ⟨none, none, ∅⟩

/-- A request for a document alone. -/
def ofQuery (query : String) : Request := { empty with query := some query }

/-! ## Reading -/

/-- The fields of a request. All of them may be missing or `null`. -/
def fields : List (Json.RecordField Request) :=
  [⟨"query", fun r s => do
      let (query, s) ← Json.readOptional Json.readStringValue s
      .ok ({ r with query }, s)⟩,
    ⟨"operationName", fun r s => do
      let (operationName, s) ← Json.readOptional Json.readStringValue s
      .ok ({ r with operationName }, s)⟩,
    ⟨"variables", fun r s => do
      let (bindings, s) ←
        Json.readOptional (Json.readObjectValue (Json.nestingLimit - 1)) s
      .ok ({ r with bindings := bindings.getD ∅ }, s)⟩]

/-- Read a request from symbols. -/
def read (s : Json.Input) : Except Fault Request :=
  Json.readWith (Json.readRecord fields empty) s

/-- Read a request from bytes. -/
def ofBytes (bytes : List UInt8) : Except Fault Request := read (Symbol.ofBytes bytes)

/-! ## Writing -/

/-- A request as a value: what is missing, and an empty set of variables, is left out. -/
def toJson (r : Request) : Json :=
  .object (r.query.toList.map (fun s => ("query", .string s))
    ++ r.operationName.toList.map (fun s => ("operationName", .string s))
    ++ if r.bindings.isEmpty then [] else [("variables", .ofObject r.bindings)])

end Request

end ForgeQuery
