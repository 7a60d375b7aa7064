import ForgeQuery.Query.Document

/-!
# Root fields

The fields that a document may name at its top. Each belongs to one kind of operation and cannot be
reached from the other; only `me` is open to requests without a caller.
-/

namespace ForgeQuery

/-- A field of the query or of the mutation type. -/
inductive RootField where
  /-- the caller's own user -/
  | me
  /-- any user by id -/
  | user
  /-- the caller's repositories -/
  | repos
  /-- a single repository by id -/
  | repo
  /-- change the caller's mail address -/
  | updateProfile
  /-- change the role of a user -/
  | promoteUser
  deriving DecidableEq

namespace RootField

/-- Every root field, queries first. -/
def all : List RootField := [me, user, repos, repo, updateProfile, promoteUser]

/-- The name of a root field. -/
def name : RootField → String
  | me => "me"
  | user => "user"
  | repos => "repos"
  | repo => "repo"
  | updateProfile => "updateProfile"
  | promoteUser => "promoteUser"

/-- The kind of operation that a root field belongs to. -/
def kind : RootField → OperationKind
  | me | user | repos | repo => .query
  | updateProfile | promoteUser => .mutation

/-- The root field of a kind of operation with a given name. -/
def ofName? (kind : OperationKind) (name : String) : Option RootField :=
  all.find? fun root => root.kind == kind && root.name == name

/-- Whether a root field needs a caller. -/
def requiresCaller : RootField → Bool
  | me => false
  | _ => true

/-- No two root fields share a name. -/
theorem eq_of_name_eq {a b : RootField} (h : a.name = b.name) : a = b := by
  revert h
  cases a <;> cases b <;> decide

end RootField

end ForgeQuery
