import ForgeQuery.Json.Basic

/-!
# The schema and its introspection

The types of the query language over a forge, and the answer that every introspection document
gets: the whole schema, whatever the document asks for. The schema lists what can be named, not
what a request may see.
-/

namespace ForgeQuery

namespace Schema

/-! ## Types -/

/-- A reference to a type. -/
inductive TypeRef where
  /-- a scalar type by its name -/
  | scalar (name : String)
  /-- an object type by its name -/
  | object (name : String)
  /-- a list of a type -/
  | list (of : TypeRef)
  /-- a type without `null` -/
  | nonNull (of : TypeRef)
  deriving DecidableEq

/-- An argument of a field. -/
structure InputValue where
  /-- the name of the argument -/
  name : String
  /-- its type -/
  type : TypeRef
  deriving DecidableEq

/-- A field of an object type. -/
structure Field where
  /-- the name of the field -/
  name : String
  /-- its arguments -/
  args : List InputValue
  /-- its type -/
  type : TypeRef
  /-- what it is for -/
  description : Option String
  deriving DecidableEq

/-- A type of the schema. -/
inductive TypeDefinition where
  /-- an object type with its fields -/
  | object (name : String) (fields : List Field)
  /-- a scalar type -/
  | scalar (name : String)
  deriving DecidableEq

/-- The name of a type. -/
def TypeDefinition.name : TypeDefinition → String
  | object name _ | scalar name => name

/-- The fields of a type. -/
def TypeDefinition.fields : TypeDefinition → List Field
  | object _ fields => fields
  | scalar _ => []

/-! ## The schema -/

/-- A reference to the scalar type of texts. -/
def text : TypeRef := .scalar "String"

/-- A field without arguments and description. -/
def plainField (name : String) (type : TypeRef) : Field := ⟨name, [], type, none⟩

/-- Where queries start. -/
def queryType : TypeDefinition :=
  .object "Query" [
    ⟨"me", [], .object "User", some "Current authenticated user"⟩,
    ⟨"user", [⟨"id", .nonNull text⟩], .object "User", some "Fetch user by ID"⟩,
    ⟨"repos", [], .list (.object "Repo"), some "List accessible repositories"⟩,
    ⟨"repo", [⟨"id", .nonNull text⟩], .object "Repo", some "Fetch repository by ID"⟩]

/-- Where mutations start. -/
def mutationType : TypeDefinition :=
  .object "Mutation" [
    ⟨"updateProfile", [⟨"email", text⟩], .object "User", some "Update own profile"⟩,
    ⟨"promoteUser", [⟨"userId", .nonNull text⟩, ⟨"role", .nonNull text⟩], .object "User",
      some "Promote a user to a new role (admin only)"⟩]

/-- What can be selected of a user. -/
def userType : TypeDefinition :=
  .object "User" [
    plainField "id" text,
    plainField "username" text,
    plainField "email" text,
    plainField "role" text,
    plainField "repos" (.list text)]

/-- What can be selected of a repository. -/
def repoType : TypeDefinition :=
  .object "Repo" [
    plainField "id" text,
    plainField "name" text,
    plainField "stars" (.scalar "Int"),
    plainField "language" text,
    plainField "isPrivate" (.scalar "Boolean"),
    ⟨"flag", [], text, some "Hidden flag field"⟩]

/-- Every type, in the order in which introspection lists them. -/
def types : List TypeDefinition :=
  [queryType, mutationType, userType, repoType, .scalar "String", .scalar "Int",
    .scalar "Boolean"]

/-! ## Introspection -/

/-- A type reference as a value: a wrapper holds the type it wraps. -/
def TypeRef.toJson : TypeRef → Json
  | scalar name => .object [("kind", .string "SCALAR"), ("name", .string name)]
  | object name => .object [("kind", .string "OBJECT"), ("name", .string name)]
  | list t => .object [("kind", .string "LIST"), ("ofType", t.toJson)]
  | nonNull t => .object [("kind", .string "NON_NULL"), ("ofType", t.toJson)]

/-- An argument as a value. -/
def InputValue.toJson (v : InputValue) : Json :=
  .object [("name", .string v.name), ("type", v.type.toJson)]

/-- A field as a value; a description is left out when there is none. -/
def Field.toJson (f : Field) : Json :=
  .object ([("name", .string f.name), ("args", .array (f.args.map InputValue.toJson)),
    ("type", f.type.toJson)] ++ f.description.toList.map fun d => ("description", .string d))

/-- A type as a value. -/
def TypeDefinition.toJson : TypeDefinition → Json
  | object name fields =>
    .object [("kind", .string "OBJECT"), ("name", .string name),
      ("fields", .array (fields.map Field.toJson))]
  | scalar name => .object [("kind", .string "SCALAR"), ("name", .string name)]

/-- A type by its name alone. -/
def TypeDefinition.reference (t : TypeDefinition) : Json := .object [("name", .string t.name)]

/-- The answer to every introspection document. -/
def introspection : Object :=
  Ordered.ofList [("__schema", .object [
    ("queryType", queryType.reference),
    ("mutationType", mutationType.reference),
    ("types", .array (types.map TypeDefinition.toJson))])]

end Schema

end ForgeQuery
