import ForgeQuery.Json.Basic
import ForgeQuery.Query.NestedCut
import ForgeQuery.Query.Selection

/-!
# Projecting an entity to the selected fields

An `Entity` is the answer to a field before its sub-selection is applied: values under the fields
of its type. A sub-selection names fields, one to a unit, with nested selections cut out first.
Names that are no field of the type, and fields that the entity does not carry, are passed over.

* Fields that are named come in the order of first mention, each with the first value that the
  entity was given for it (`Entity.selected`).
* Without a sub-selection, and when nothing it names is carried, the whole entity is the answer:
  each field at the place of its first value and with its last (`Entity.toObject`).
-/

namespace ForgeQuery

/-! ## Fields of a type -/

/-- A type of the schema whose fields can be selected. -/
class Fields (φ : Type) where
  /-- the name of the type in the schema -/
  typeName : String
  /-- every field, in the order of the schema -/
  all : List φ
  /-- the name of a field -/
  name : φ → String

/-- The field with a given name. -/
def Fields.ofName? (φ : Type) [Fields φ] (name : String) : Option φ :=
  (Fields.all : List φ).find? fun f => Fields.name f == name

/-- The fields of a user. -/
inductive UserField where
  /-- the id -/
  | id
  /-- the login name -/
  | username
  /-- the mail address -/
  | email
  /-- the role -/
  | role
  /-- the ids of the owned repositories -/
  | repos
  deriving DecidableEq

/-- The fields of a repository. -/
inductive RepoField where
  /-- the id -/
  | id
  /-- the display name -/
  | name
  /-- the number of stars -/
  | stars
  /-- the main language -/
  | language
  /-- whether the repository is private -/
  | isPrivate
  /-- the hidden flag -/
  | flag
  deriving DecidableEq

instance : Fields UserField where
  typeName := "User"
  all := [.id, .username, .email, .role, .repos]
  name
    | .id => "id"
    | .username => "username"
    | .email => "email"
    | .role => "role"
    | .repos => "repos"

instance : Fields RepoField where
  typeName := "Repo"
  all := [.id, .name, .stars, .language, .isPrivate, .flag]
  name
    | .id => "id"
    | .name => "name"
    | .stars => "stars"
    | .language => "language"
    | .isPrivate => "isPrivate"
    | .flag => "flag"

/-! ## Entities -/

/-- Values under fields, in the order in which they were given; a field may be given again. -/
structure Entity (φ : Type) where
  /-- the fields and values -/
  entries : List (φ × Json)

namespace Entity

variable {φ : Type} [DecidableEq φ] [Fields φ]

/-- The first value given for a field. -/
def first? (e : Entity φ) (f : φ) : Option Json := Ordered.find? f e.entries

/-- The whole entity as an object. -/
def toObject (e : Entity φ) : Object :=
  Ordered.ofList (e.entries.map fun entry => (Fields.name entry.1, entry.2))

/-- What a unit of a sub-selection takes from the entity: the field it names and its value. -/
def leaf? (e : Entity φ) (unit : Text) : Option (String × Json) := do
  let f ← Fields.ofName? φ (String.ofList (Text.trim (cutNested unit)))
  let v ← e.first? f
  some (Fields.name f, v)

/-- The fields that a sub-selection takes from the entity. -/
def selected (e : Entity φ) (sub : Text) : Object :=
  Ordered.ofList ((splitSelections sub).filterMap e.leaf?)

/-- Whether a sub-selection is there and takes nothing from the entity. -/
def isUnmatched (e : Entity φ) : Option Text → Bool
  | none => false
  | some sub => (e.selected sub).isEmpty

/-- The entity with a sub-selection applied. -/
def project (e : Entity φ) : Option Text → Json
  | none => .ofObject e.toObject
  | some sub =>
    let chosen := e.selected sub
    if chosen.isEmpty then .ofObject e.toObject else .ofObject chosen

@[simp] theorem project_none (e : Entity φ) : e.project none = .ofObject e.toObject := rfl

end Entity

end ForgeQuery
