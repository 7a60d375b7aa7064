import ForgeQuery.Execution.Event
import ForgeQuery.Json.Basic

/-!
# Lines of the log

How a report is written to the log: as a JSON value with its level, its message among its fields,
and the span that it was reported in.
-/

namespace ForgeQuery

/-- A value in a field of an event, as it is written. -/
def FieldValue.toJson : FieldValue → Json
  | text s => .string s
  | flag b => .bool b

/-- A span as it is written: its name, and its fields. -/
def Span.toJson (s : Span) : Json :=
  .object (("name", .string Span.name) :: s.fields.map fun f => (f.1, .string f.2))

/-- A report as it is written to the log. -/
def Report.toJson (r : Report) : Json :=
  .object [("level", .string r.event.level.name),
    ("fields", .object (("message", .string r.event.message)
      :: r.event.fields.map fun f => (f.1, f.2.toJson))),
    ("span", (r.span.map Span.toJson).getD .null)]

end ForgeQuery
