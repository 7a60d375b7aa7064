import ForgeQuery.Execution.Error
import ForgeQuery.Json.Printer
import ForgeQuery.Json.Record

/-!
# Responses

The answer to a request: data, or errors of which each is a message and nothing else.
-/

namespace ForgeQuery

/-- An error as the client sees it. -/
structure ResponseError where
  /-- what went wrong -/
  message : String
  deriving DecidableEq

/-- A response. -/
structure Response where
  /-- the data, when the request went through -/
  data : Option Json
  /-- the errors that ended the request -/
  errors : List ResponseError

/-- What the client is told of an execution error. -/
def ExecutionError.toResponseError (e : ExecutionError) : ResponseError := ⟨e.message⟩

namespace Response

/-- The response with nothing in it. -/
def empty : Response := ⟨none, []⟩

/-- The response to a request that went through. -/
def ofData (data : Object) : Response := ⟨some (.ofObject data), []⟩

/-- The response to a request that was ended. -/
def ofError (e : ExecutionError) : Response := ⟨none, [e.toResponseError]⟩

/-- The response that a result of an execution gives. -/
def ofResult : Except ExecutionError Object → Response
  | .ok data => ofData data
  | .error e => ofError e

/-- Whether there are no errors. -/
def isSuccess (r : Response) : Bool := r.errors.isEmpty

/-! ## Reading -/

/-- The fields of an error. The message may be missing but not `null`. -/
def errorFields : List (Json.RecordField ResponseError) :=
  [⟨"message", fun _ s => do
    let (message, s) ← Json.readStringValue s
    .ok (⟨message⟩, s)⟩]

/-- The fields of a response. Both may be missing, the data also `null`. -/
def fields : List (Json.RecordField Response) :=
  [⟨"data", fun r s => do
      let (data, s) ← Json.readOptional (Json.readValue (Json.nestingLimit - 1)) s
      .ok ({ r with data }, s)⟩,
    ⟨"errors", fun r s => do
      let (errors, s) ← Json.readArrayValue (Json.readRecord errorFields ⟨""⟩) s
      .ok ({ r with errors }, s)⟩]

/-- Read a response from symbols. -/
def read (s : Json.Input) : Except Fault Response :=
  Json.readWith (Json.readRecord fields empty) s

/-- Read a response from bytes. -/
def ofBytes (bytes : List UInt8) : Except Fault Response := read (Symbol.ofBytes bytes)

/-! ## Writing -/

/-- An error as a value. -/
def errorToJson (e : ResponseError) : Json := .object [("message", .string e.message)]

/-- A response as a value: missing data, and an empty list of errors, are left out. -/
def toJson (r : Response) : Json :=
  .object (r.data.toList.map (fun v => ("data", v))
    ++ if r.errors.isEmpty then [] else [("errors", .array (r.errors.map errorToJson))])

end Response

end ForgeQuery
