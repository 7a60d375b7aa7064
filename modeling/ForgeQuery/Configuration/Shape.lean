import ForgeQuery.Configuration.Basic

/-!
# The shape of a configuration file

A description of configuration files in the vocabulary of JSON Schema, draft 7: what the sections
and fields are, which of them are required, and what a missing one stands for. A described part
lists its keywords in a fixed order, and the fields of a record come in the order of their names.
-/

namespace ForgeQuery

namespace Shape

/-! ## Keywords -/

/-- The keyword for a description. -/
def described (text : String) : String × Json := ("description", .string text)

/-- The keyword for what a missing value stands for. -/
def fallback (v : Json) : String × Json := ("default", v)

/-- The keyword for a type. -/
def typed (name : String) : String × Json := ("type", .string name)

/-- The keywords for the fields of a record that has no others. -/
def fields (properties : List (String × Json)) : List (String × Json) :=
  [("properties", .object properties), ("additionalProperties", .bool false)]

/-- The keyword for the fields that have to be there. -/
def required (names : List String) : String × Json := ("required", .stringArray names)

/-- A text. -/
def text : Json := .object [typed "string"]

/-! ## Records -/

/-- A user record. -/
def user : Json :=
  .object ([described "A user account.", typed "object",
      required ["email", "id", "password", "username"]] ++ fields [
    ("email", text),
    ("id", text),
    ("password", .object [described "Login password, compared verbatim by [`Store::authenticate`].",
      typed "string"]),
    ("repos", .object [described "Ids of the repositories this user owns.",
      fallback (.array []), typed "array", ("items", text)]),
    ("role", .object [described "Absent after a promotion that did not name a role.",
      fallback .null, typed "string", ("nullable", .bool true)]),
    ("username", text)])

/-- A repository record. -/
def repo : Json :=
  .object ([described "A source repository.", typed "object",
      required ["id", "language", "name"]] ++ fields [
    ("flag", .object [described "Hidden data, only advertised through introspection.",
      fallback .null, typed "string", ("nullable", .bool true)]),
    ("id", text),
    ("is_private", .object [fallback (.bool false), typed "boolean"]),
    ("language", text),
    ("name", text),
    ("stars", .object [fallback (.integer 0), typed "integer", ("format", .string "int64")])])

/-- A list of records, empty when missing. -/
def records (item : Json) : Json :=
  .object [fallback (.array []), typed "array", ("items", item)]

/-! ## Sections -/

/-- One of the policies. -/
def mode (policy : Policy) (text : String) : Json :=
  .object [described text, typed "string", ("enum", .stringArray [policy.name])]

/-- The section on authorization. -/
def authorization : Json :=
  .object ([described "Authorization checks applied on top of authentication.",
      fallback (.object [("mode", .string Policy.permissive.name)]), typed "object"] ++ fields [
    ("mode", .object [described "`permissive` (the default) or `enforced`.",
      fallback (.string Policy.permissive.name),
      ("oneOf", .array [
        mode .permissive "Any authenticated caller may read any repository and promote any user.",
        mode .enforced
          "Repository reads are limited to owned repositories and only admins may promote."])])])

/-- The section with the records. -/
def seed : Json :=
  .object ([described "The records the store starts with.", fallback Seed.standard.toRecord,
      typed "object"] ++ fields [
    ("repos", records repo),
    ("users", records user)])

/-- The whole configuration. -/
def configuration : Json :=
  .object ([("$schema", .string "http://json-schema.org/draft-07/schema#"),
      ("title", .string "Configuration"),
      described ("The configuration of the engine.\n\nEvery section is optional; an empty document "
        ++ "yields the permissive DevHub setup."),
      typed "object"] ++ fields [
    ("authorization", authorization),
    ("seed", seed)])

end Shape

end ForgeQuery
