import ForgeQuery.Configuration.Seed

/-!
# Configurations

A configuration is a policy and a seed. It is valid when the store can index its seed without
loss: no user id, no username and no repository id occurs twice. `Configuration.validate` names
the first repetition it finds, user ids before usernames before repository ids.
-/

namespace ForgeQuery

/-- The policy by a name. -/
def Policy.ofName? (name : String) : Option Policy :=
  [Policy.permissive, Policy.enforced].find? fun p => p.name == name

/-- What an engine is set up with. -/
structure Configuration where
  /-- the policy in force -/
  policy : Policy
  /-- the records that the store starts with -/
  seed : Seed
  deriving DecidableEq

/-- The lists of a seed in which nothing may occur twice. -/
inductive SeedKey where
  /-- the ids of the users -/
  | userId
  /-- the names that users log in with -/
  | username
  /-- the ids of the repositories -/
  | repoId
  deriving DecidableEq

/-- What a list is called. -/
def SeedKey.name : SeedKey → String
  | userId => "user id"
  | username => "username"
  | repoId => "repository id"

/-- Why a configuration is refused. -/
inductive ConfigurationError where
  /-- the file cannot be read as text -/
  | unreadable
  /-- the text is no configuration -/
  | undecodable
  /-- an entry of the seed occurs twice -/
  | duplicateSeed (key : SeedKey) (value : String)
  deriving DecidableEq

/-- What is said about a repetition. -/
def duplicateMessage (key : SeedKey) (value : String) : String :=
  "duplicate " ++ key.name ++ " '" ++ value ++ "' in seed data"

/-- The first entry of a list that has occurred before. -/
def firstRepeated? : List String → List String → Option String
  | _, [] => none
  | seen, x :: rest => if x ∈ seen then some x else firstRepeated? (x :: seen) rest

namespace Configuration

/-- The configuration of an engine that is given none. -/
def standard : Configuration := ⟨.permissive, .standard⟩

/-- The entries of one of the lists that may hold nothing twice. -/
def entries (c : Configuration) : SeedKey → List String
  | .userId => c.seed.users.map User.id
  | .username => c.seed.users.map User.username
  | .repoId => c.seed.repos.map Repo.id

/-- Refuse a list that holds something twice. -/
def checkUnique (c : Configuration) (key : SeedKey) : Except ConfigurationError Unit :=
  match firstRepeated? [] (c.entries key) with
  | some value => .error (.duplicateSeed key value)
  | none => .ok ()

/-- Refuse a seed that a store could not index without loss. -/
def validate (c : Configuration) : Except ConfigurationError Unit := do
  c.checkUnique .userId
  c.checkUnique .username
  c.checkUnique .repoId

/-- The record form of a configuration. -/
def toRecord (c : Configuration) : Json :=
  .object [("authorization", .object [("mode", .string c.policy.name)]),
    ("seed", c.seed.toRecord)]

end Configuration

end ForgeQuery
