import ForgeQuery.Forge.Caller

/-!
# The store

Users and repositories under their ids, in the order in which the ids first came. A later record
with a known id replaces the earlier one at its place. Repositories never change; a user changes
through `Store.updateUser`.
-/

namespace ForgeQuery

/-- The records of a forge. -/
structure Store where
  /-- the users under their ids -/
  users : Ordered String User
  /-- the repositories under their ids -/
  repos : Ordered String Repo
  deriving DecidableEq

namespace Store

/-- The store that holds the given records. -/
def ofRecords (users : List User) (repos : List Repo) : Store where
  users := Ordered.ofList (users.map fun u => (u.id, u))
  repos := Ordered.ofList (repos.map fun r => (r.id, r))

/-- The user with an id. -/
def user? (s : Store) (id : String) : Option User := s.users.get? id

/-- The repository with an id. -/
def repo? (s : Store) (id : String) : Option Repo := s.repos.get? id

/-- Every repository id, in order. -/
def repoIds (s : Store) : List String := s.repos.keys

/-- The id of the first user with exactly these credentials. -/
def authenticate (s : Store) (username password : String) : Option String :=
  (s.users.values.find? fun u => u.username == username && u.password == password).map User.id

/-- The identity of a user as the record has it now. -/
def caller? (s : Store) (id : String) : Option Caller := (s.user? id).map User.caller

/-- Everything that is shown of a user. -/
def profile? (s : Store) (id : String) : Option Json :=
  (s.user? id).map fun u => u.entity.project none

/-- Change the user with an id. -/
def updateUser (s : Store) (id : String) (change : User → User) : Store :=
  { s with users := s.users.modify id change }

theorem user?_updateUser (s : Store) (id other : String) (change : User → User) :
    (s.updateUser id change).user? other
      = if other = id then (s.user? other).map change else s.user? other :=
  Ordered.get?_modify s.users id other change

end Store

end ForgeQuery
