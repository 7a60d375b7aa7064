import ForgeQuery.Forge.Record

/-!
# Callers and policies

A `Caller` is the identity that a request is executed for, taken from the user's record once and
not changed while the request runs. A `Policy` decides what a caller may do beyond being known:
the permissive one allows everything, the enforced one asks for ownership and for the admin role.
-/

namespace ForgeQuery

/-- The identity behind a request. -/
structure Caller where
  /-- the id of the user -/
  id : String
  /-- the role at the start of the request -/
  role : Option String
  /-- the ids of the repositories owned at the start of the request -/
  repos : List String
  deriving DecidableEq

/-- The identity of a user. -/
def User.caller (u : User) : Caller := ⟨u.id, u.role, u.repos⟩

namespace Caller

/-- Whether the caller owns a repository. -/
def owns (c : Caller) (repo : String) : Bool := c.repos.contains repo

/-- Whether the caller has the privileged role. -/
def isAdmin (c : Caller) : Bool := c.role == some adminRole

end Caller

/-- What is checked beyond the presence of a caller. -/
inductive Policy where
  /-- any caller may read any repository and promote any user -/
  | permissive
  /-- single repositories are read by their owners alone, and only admins promote -/
  | enforced
  deriving DecidableEq

namespace Policy

/-- The name of a policy. -/
def name : Policy → String
  | permissive => "permissive"
  | enforced => "enforced"

/-- Whether a caller may read a repository that is asked for by its id. -/
def canReadRepo : Policy → Caller → String → Bool
  | permissive, _, _ => true
  | enforced, caller, repo => caller.owns repo

/-- Whether a caller may give another user a role. The role that is asked for does not matter. -/
def canPromote : Policy → Caller → Option String → Bool
  | permissive, _, _ => true
  | enforced, caller, _ => caller.isAdmin

end Policy

end ForgeQuery
