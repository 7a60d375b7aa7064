import ForgeQuery.Execution.Event
import ForgeQuery.Execution.RootField
import ForgeQuery.Forge.Store

/-!
# Resolving root fields

A `Run` reads and changes the store, reports events, and may end with an error. What it has written
before an error stays written: the error is all that is passed on, the store is never set back.

Queries only read. `updateProfile` changes the caller's own mail address and `promoteUser` the role
of any user, and these two are the only ways in which a store changes.
-/

namespace ForgeQuery

/-! ## Runs -/

/-- The store, and what has been reported so far. -/
structure Progress where
  /-- the store as the run has it now -/
  store : Store
  /-- the events in order -/
  events : List Event
  deriving DecidableEq

/-- A computation over a store that may end with an error, what it wrote staying written. -/
abbrev Run : Type → Type := ExceptT ExecutionError (StateM Progress)

namespace Run

/-- The store as it is now. -/
def store : Run Store := do return (← get).store

/-- Report an event. -/
def report (e : Event) : Run Unit := modify fun p => { p with events := p.events ++ [e] }

/-- Change the user with an id. -/
def updateUser (id : String) (change : User → User) : Run Unit :=
  modify fun p => { p with store := p.store.updateUser id change }

end Run

/-- What a resolver may consult besides the store. -/
structure Context where
  /-- the policy in force -/
  policy : Policy
  /-- the caller of the request, if there is one -/
  caller : Option Caller
  deriving DecidableEq

namespace Context

/-- The caller, without whom a root field cannot be resolved. -/
def authenticated (ctx : Context) (root : RootField) : Run Caller :=
  match ctx.caller with
  | some caller => pure caller
  | none => throw (.unauthenticated root.name)

end Context

/-- The answer that an entity gives under a sub-selection. It is reported when the sub-selection
takes nothing. -/
def answer {φ : Type} [DecidableEq φ] [Fields φ] (e : Entity φ) (sub : Option Text) :
    Run Json := do
  if e.isUnmatched sub then
    Run.report (.nothingSelected (Fields.typeName φ) (String.ofList (sub.getD [])))
  return e.project sub

/-! ## Queries -/

/-- The caller's own user, or `null` for nobody and for a caller without a record. -/
def resolveMe (ctx : Context) (field : FieldExpression) : Run Json :=
  match ctx.caller with
  | none => pure .null
  | some caller => do
    match (← Run.store).user? caller.id with
    | none => pure .null
    | some user => answer user.entity field.subSelection

/-- Any user, whoever asks; `null` without an id and for one that is not known. -/
def resolveUser (ctx : Context) (field : FieldExpression) : Run Json := do
  let _ ← ctx.authenticated .user
  match (field.argument? "id").bind (← Run.store).user? with
  | none => pure .null
  | some user => answer user.entity field.subSelection

/-- The caller's repositories in the order of the caller's list. Ids without a record are passed
over. -/
def resolveRepos (ctx : Context) (field : FieldExpression) : Run Json := do
  let caller ← ctx.authenticated .repos
  let records := caller.repos.filterMap (← Run.store).repo?
  return .array (← records.mapM fun repo => answer repo.entity field.subSelection)

/-- A single repository. One that the policy keeps from the caller is `null`, like one that is not
known. -/
def resolveRepo (ctx : Context) (field : FieldExpression) : Run Json := do
  let caller ← ctx.authenticated .repo
  match (field.argument? "id").bind (← Run.store).repo? with
  | none => pure .null
  | some repo =>
    if ctx.policy.canReadRepo caller repo.id then answer repo.entity field.subSelection
    else do
      Run.report (.readRefused caller.id repo.id)
      pure .null

/-! ## Mutations -/

/-- Change the caller's own mail address. A missing or empty one leaves it as it is. -/
def resolveUpdateProfile (ctx : Context) (field : FieldExpression) : Run Json := do
  let caller ← ctx.authenticated .updateProfile
  match (field.argument? "email").filter fun email => email ≠ "" with
  | some email => Run.updateUser caller.id fun user => { user with email }
  | none => pure ()
  match (← Run.store).user? caller.id with
  | none => pure .null
  | some user => answer user.profileEntity field.subSelection

/-- A user with a new role. The privileged role brings every repository with it; any other leaves
the repositories as they are. -/
def User.promoted (repoIds : List String) (role : Option String) (user : User) : User :=
  if role = some adminRole then { user with role, repos := repoIds } else { user with role }

/-- Change the role of a user. -/
def resolvePromoteUser (ctx : Context) (field : FieldExpression) : Run Json := do
  let caller ← ctx.authenticated .promoteUser
  let role := field.argument? "role"
  if ctx.policy = .permissive then
    Run.report (.promotionUnguarded caller.id role (role ≠ some adminRole && !caller.isAdmin))
  if !ctx.policy.canPromote caller role then throw (.forbidden RootField.promoteUser.name)
  let store ← Run.store
  match field.argument? "userId" with
  | none => throw (.targetNotFound none)
  | some target =>
    match store.user? target with
    | none => throw (.targetNotFound (some target))
    | some user =>
      Run.updateUser target (User.promoted store.repoIds role)
      Run.report (.roleChanged caller.id target role)
      answer (user.promoted store.repoIds role).entity field.subSelection

/-- Resolve a root field. -/
def RootField.resolve (root : RootField) (ctx : Context) (field : FieldExpression) : Run Json :=
  match root with
  | .me => resolveMe ctx field
  | .user => resolveUser ctx field
  | .repos => resolveRepos ctx field
  | .repo => resolveRepo ctx field
  | .updateProfile => resolveUpdateProfile ctx field
  | .promoteUser => resolvePromoteUser ctx field

end ForgeQuery
