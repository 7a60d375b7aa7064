/-!
# Execution errors

Every error ends the whole request and becomes the only entry of the response's errors. Malformed
units and unknown fields are no errors; they are passed over.
-/

namespace ForgeQuery

/-- Why a request was ended. -/
inductive ExecutionError where
  /-- there is no document -/
  | documentEmpty
  /-- the document has none of the known shapes -/
  | documentUnparseable
  /-- a field needs a caller and there is none -/
  | unauthenticated (field : String)
  /-- the user to promote is not named or not known -/
  | targetNotFound (id : Option String)
  /-- the policy refuses a field to the caller -/
  | forbidden (field : String)
  deriving DecidableEq

/-- A status of the hypertext protocol. -/
structure Status where
  /-- the number -/
  code : Nat
  /-- the phrase that goes with it -/
  reason : String
  deriving DecidableEq

namespace ExecutionError

/-- What the client is told. -/
def message : ExecutionError → String
  | documentEmpty => "Query required"
  | documentUnparseable => "Could not parse query"
  | unauthenticated _ => "Authentication required"
  | targetNotFound _ => "User not found"
  | forbidden _ => "Not authorized"

/-- The status a host should answer with. A missing target is found out after the request has been
accepted, so it is no failure of the exchange. -/
def status : ExecutionError → Status
  | documentEmpty | documentUnparseable => ⟨400, "Bad Request"⟩
  | unauthenticated _ => ⟨401, "Unauthorized"⟩
  | targetNotFound _ => ⟨200, "OK"⟩
  | forbidden _ => ⟨403, "Forbidden"⟩

/-- The field or id that the error is about. -/
def subject : ExecutionError → Option String
  | documentEmpty | documentUnparseable => none
  | unauthenticated field | forbidden field => some field
  | targetNotFound id => id

end ExecutionError

end ForgeQuery
