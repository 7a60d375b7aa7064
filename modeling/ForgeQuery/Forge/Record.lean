import ForgeQuery.Query.Projection

/-!
# The records of a forge

A forge keeps users and repositories. A user owns repositories by listing their ids; nothing says
that an id in the list has a record. What is shown of a record is an `Entity`: for a user every
field but the password, and after a profile update the same without the repositories.
-/

namespace ForgeQuery

/-- The privileged role. Promotion to it grants every repository. -/
def adminRole : String := "admin"

/-- A user account. -/
structure User where
  /-- the id that the store keeps the record under -/
  id : String
  /-- the login name -/
  username : String
  /-- the login password, compared verbatim -/
  password : String
  /-- the mail address -/
  email : String
  /-- the role; a promotion that names none takes it away -/
  role : Option String
  /-- the ids of the owned repositories -/
  repos : List String
  deriving DecidableEq

/-- A source repository. -/
structure Repo where
  /-- the id that the store keeps the record under -/
  id : String
  /-- the display name -/
  name : String
  /-- the number of stars -/
  stars : Int64
  /-- the main language -/
  language : String
  /-- whether the repository is private -/
  isPrivate : Bool
  /-- hidden data that only the schema tells of -/
  flag : Option String
  deriving DecidableEq

namespace User

/-- What a profile update shows of a user. -/
def profileEntity (u : User) : Entity UserField :=
  ⟨[(.id, .string u.id), (.username, .string u.username), (.email, .string u.email),
    (.role, .optionalString u.role)]⟩

/-- What is shown of a user. -/
def entity (u : User) : Entity UserField :=
  ⟨u.profileEntity.entries ++ [(.repos, .stringArray u.repos)]⟩

end User

/-- What is shown of a repository. -/
def Repo.entity (r : Repo) : Entity RepoField :=
  ⟨[(.id, .string r.id), (.name, .string r.name), (.stars, .integer r.stars.toInt),
    (.language, .string r.language), (.isPrivate, .bool r.isPrivate),
    (.flag, .optionalString r.flag)]⟩

end ForgeQuery
