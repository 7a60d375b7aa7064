import ForgeQuery.Query.Field

/-!
# Documents

A document is the whole text of a request. It is classified once:

* a text that mentions one of the introspection markers, wherever, is an introspection document;
* else `mutation` or `query` at its start, an optional name, an optional list of variable
  definitions and a braced body make an operation of that kind. The keyword may run into the name,
  and a text that starts with a keyword is read in no other way;
* else a braced body alone is a query.

Variable definitions are kept as they stand and never interpreted.
-/

namespace ForgeQuery

/-- The kinds of documents. -/
inductive OperationKind where
  /-- a question about the schema -/
  | introspection
  /-- an operation that only reads -/
  | query
  /-- an operation that may change users -/
  | mutation
  deriving DecidableEq

namespace OperationKind

/-- The name of a kind. -/
def name : OperationKind → String
  | introspection => "introspection"
  | query => "query"
  | mutation => "mutation"

end OperationKind

/-- A classified document. -/
structure Document where
  /-- what the document asks for -/
  kind : OperationKind
  /-- the name of the operation, if it has one -/
  name : Option String
  /-- the text of the variable definitions, if there is a list of them -/
  definitions : Option String
  /-- the trimmed text between the outer braces -/
  body : Text
  deriving DecidableEq

namespace Document

/-- The words that turn any text into an introspection document. -/
def introspectionMarkers : List Text := ["__schema".toList, "__type".toList]

/-- Whether a text mentions an introspection marker. -/
def isIntrospection (t : Text) : Bool := introspectionMarkers.any fun m => Text.mentions m t

/-- The trimmed text between the braces around a body. -/
def body? (t : Text) : Option Text := (braced? t).map Text.trim

/-- What follows the keyword of an operation: a name, a list of variable definitions and a body,
of which the first two may be missing. -/
def operation? (kind : OperationKind) (header : Text) : Option Document := do
  let (name, rest) := Text.takeName (Text.trimStart header)
  let (definitions, rest) ← parenthesised? (Text.trimStart rest)
  let body ← body? rest
  some {
    kind
    name := if name.isEmpty then none else some (String.ofList name)
    definitions := definitions.map String.ofList
    body }

/-- Classify a trimmed text that mentions no introspection marker. -/
def classify? (t : Text) : Option Document :=
  match "mutation".toList.isPrefixOf? t with
  | some header => operation? .mutation header
  | none =>
    match "query".toList.isPrefixOf? t with
    | some header => operation? .query header
    | none => (body? t).map fun body => ⟨.query, none, none, body⟩

/-- Classify a document, unless it has none of the three shapes. -/
def parse? (text : Text) : Option Document :=
  let t := Text.trim text
  if isIntrospection t then some ⟨.introspection, none, none, []⟩ else classify? t

end Document

end ForgeQuery
