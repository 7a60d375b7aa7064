import ForgeQuery.Forge.Store

/-!
# Seeds

A seed is the list of records that a store starts with, as it is written down: repetitions and
order are kept. This module also has the seed that is used when nothing else is configured, and
the record form in which seeds are written as JSON, passwords included.
-/

namespace ForgeQuery

/-- The records that a store starts with. -/
structure Seed where
  /-- the users in order -/
  users : List User
  /-- the repositories in order -/
  repos : List Repo
  deriving DecidableEq

namespace Seed

/-- The store that starts with the records of a seed. -/
def store (s : Seed) : Store := Store.ofRecords s.users s.repos

/-- The seed that is used when none is configured. -/
def standard : Seed where
  users := [
    ⟨"dev-001", "developer", "dev2024", "dev@devhub.io", some "developer",
      ["frontend-app", "utils-lib"]⟩,
    ⟨"dev-002", "teamlead", "lead2024", "lead@devhub.io", some "teamlead",
      ["frontend-app", "utils-lib", "backend-api"]⟩,
    ⟨"dev-003", "admin", "Adm!n_S3cur3#2024", "admin@devhub.io", some "admin",
      ["frontend-app", "utils-lib", "backend-api", "infra-secrets"]⟩]
  repos := [
    ⟨"frontend-app", "Frontend App", 42, "TypeScript", false, none⟩,
    ⟨"utils-lib", "Utils Library", 18, "JavaScript", false, none⟩,
    ⟨"backend-api", "Backend API", 67, "Python", true, none⟩,
    ⟨"infra-secrets", "Infrastructure Secrets", 3, "YAML", true,
      some "VBANK\x7bgr4phql_1ntr0_4uth_byp4ss\x7d"⟩]

end Seed

/-! ## Records as JSON -/

/-- The names of the fields of a user record, in order. -/
def User.recordFields : List String := ["id", "username", "password", "email", "role", "repos"]

/-- A user in record form. -/
def User.toRecord (u : User) : Json :=
  .object [("id", .string u.id), ("username", .string u.username),
    ("password", .string u.password), ("email", .string u.email),
    ("role", .optionalString u.role), ("repos", .stringArray u.repos)]

/-- The names of the fields of a repository record, in order. -/
def Repo.recordFields : List String := ["id", "name", "stars", "language", "is_private", "flag"]

/-- A repository in record form. -/
def Repo.toRecord (r : Repo) : Json :=
  .object [("id", .string r.id), ("name", .string r.name), ("stars", .integer r.stars.toInt),
    ("language", .string r.language), ("is_private", .bool r.isPrivate),
    ("flag", .optionalString r.flag)]

/-- A seed in record form. -/
def Seed.toRecord (s : Seed) : Json :=
  .object [("users", .array (s.users.map User.toRecord)),
    ("repos", .array (s.repos.map Repo.toRecord))]

end ForgeQuery
