import ForgeQuery.Proofs.SessionRuns

/-!
# Privileges under the enforced policy

The privileges of a user are the role and the owned repositories. Profile updates leave them alone,
so that only promotions change them, and under the enforced policy only an admin promotes. The
caller of a request is taken from the store once, before the request starts; a request therefore
changes a privilege only if its token is open and the user behind it is an admin at that moment,
whatever its document says and wherever it stands in a run. Where there is no admin to begin with
nobody ever becomes one, and no privilege changes at all (`enforced_privileges`).
-/

namespace ForgeQuery

/-! ## Privileges -/

/-- The role and the owned repositories of every user, in order and under the users' ids. -/
def Store.privileges (s : Store) : List (String × Option String × List String) :=
  s.users.entries.map fun e => (e.1, e.2.role, e.2.repos)

/-- Whether no user has the privileged role. -/
def Store.HasNoAdmin (s : Store) : Prop := ∀ u ∈ s.users.values, u.role ≠ some adminRole

/-- A change of other fields changes no privilege. -/
theorem Store.privileges_updateUser {change : User → User}
    (hrole : ∀ u, (change u).role = u.role) (hrepos : ∀ u, (change u).repos = u.repos)
    (s : Store) (id : String) : (s.updateUser id change).privileges = s.privileges := by
  unfold Store.privileges
  rw [Store.updateUser, Ordered.modify, List.map_map]
  refine List.map_congr_left fun e _ => ?_
  rw [Function.comp_apply]
  by_cases h : e.1 = id
  · rw [if_pos h, hrole, hrepos]
  · rw [if_neg h]

theorem Store.privileges_mailed (s : Store) (id : String) (email : Option String) :
    (s.mailed id email).privileges = s.privileges := by
  cases email with
  | none => rfl
  | some email =>
    apply Store.privileges_updateUser
    · intro u
      rfl
    · intro u
      rfl

/-- Whether there is an admin can be told from the privileges. -/
theorem Store.HasNoAdmin.congr {s s' : Store} (h : s.HasNoAdmin)
    (heq : s'.privileges = s.privileges) : s'.HasNoAdmin := by
  intro u hu
  obtain ⟨e, he, rfl⟩ := List.mem_map.mp hu
  have hmem : (e.1, e.2.role, e.2.repos) ∈ s.privileges := by
    rw [← heq]
    exact List.mem_map.mpr ⟨e, he, rfl⟩
  obtain ⟨e₀, he₀, hp⟩ := List.mem_map.mp hmem
  have hrole : e₀.2.role = e.2.role := congrArg (fun p => p.2.1) hp
  rw [← hrole]
  exact h e₀.2 (List.mem_map.mpr ⟨e₀, he₀, rfl⟩)

/-! ## One request -/

/-- A root field changes no privilege for a caller who may not promote. -/
theorem Course.privileges_eq {root : RootField} {ctx : Context} {field : FieldExpression}
    {s s' : Store} {r : Except ExecutionError Json} (h : Course root ctx field s r s')
    (hno : ∀ caller, ctx.caller = some caller → ∀ role, ctx.policy.canPromote caller role = false) :
    s'.privileges = s.privileges := by
  cases h with
  | refused => rfl
  | answered => rfl
  | mailed caller => exact Store.privileges_mailed s caller.id field.newEmail?
  | promoted caller target user v hroot hknown hallowed =>
    rw [hno caller hknown] at hallowed
    cases hallowed

/-- **A caller who is no admin changes no privilege**, whatever the request is. -/
theorem tryExecute_privileges {caller : Option Caller}
    (h : ∀ c, caller = some c → c.isAdmin = false) (s : Store) (request : Request) :
    (tryExecute .enforced s request caller).store.privileges = s.privileges := by
  refine tryExecute_invariant (P := fun s' => s'.privileges = s.privileges) ?_ rfl
  -- the caller is the same for every call, whatever the calls before it wrote
  intro doc _ c _ s₁ hs₁
  have heq := (c.course ⟨.enforced, caller⟩ s₁).privileges_eq fun c' hc' _ => h c' hc'
  exact heq.trans hs₁

/-! ## Sessions -/

namespace World

/-- Whether a token is open and the user behind it is an admin now. -/
def IsHeldByAdmin (w : World) (token : Option String) : Prop :=
  ∃ t id user, token = some t ∧ w.sessions.holders.get? t = some id ∧
    w.store.user? id = some user ∧ user.role = some adminRole

/-- An admin is looked up only with an admin's token. -/
theorem isHeldByAdmin_of_lookup? {w : World} {token : Option String} {caller : Caller}
    (h : token.bind (w.sessions.lookup? w.store) = some caller) (ha : caller.isAdmin = true) :
    w.IsHeldByAdmin token := by
  obtain ⟨t, ht, h⟩ := Option.bind_eq_some_iff.mp h
  obtain ⟨id, hid, h⟩ := Option.bind_eq_some_iff.mp h
  obtain ⟨user, huser, rfl⟩ := Option.map_eq_some_iff.mp h
  exact ⟨t, id, user, ht, hid, huser, beq_iff_eq.mp ha⟩

/-- Without an admin no token is an admin's. -/
theorem not_isHeldByAdmin {w : World} (h : w.store.HasNoAdmin) (token : Option String) :
    ¬ w.IsHeldByAdmin token := by
  rintro ⟨t, id, user, -, -, huser, hrole⟩
  have hmem : user ∈ w.store.users.values :=
    List.mem_map.mpr ⟨(id, user), Ordered.mem_of_find?_eq_some huser, rfl⟩
  exact h user hmem hrole

/-- A request with a token that is no admin's changes no privilege. -/
theorem privileges_step_request {w : World} {token : Option String} (h : ¬ w.IsHeldByAdmin token)
    (request : Request) :
    (w.step .enforced (.request request token)).store.privileges = w.store.privileges := by
  refine tryExecute_privileges (fun c hc => ?_) w.store request
  rw [← Bool.not_eq_true]
  exact fun ha => h (isHeldByAdmin_of_lookup? hc ha)

/-- An action through the session table changes no privilege where there is no admin. -/
theorem privileges_step {w : World} (h : w.store.HasNoAdmin) {a : Action}
    (ha : a.IsThroughSession) : (w.step .enforced a).store.privileges = w.store.privileges := by
  cases a with
  | login | logout | lookup => rfl
  | request request token => exact privileges_step_request (not_isHeldByAdmin h token) request
  | direct => exact ha.elim

end World

/-- **No privilege escalation.** At every point of every run through the session table, a request
changes a privilege only if its token is an admin's just then; and if there is no admin to begin
with, the privileges are the initial ones. -/
theorem enforced_privileges (s : Store) (actions : List Action)
    (h : ∀ a ∈ actions, a.IsThroughSession) :
    let w := (World.start s).run .enforced actions
    (∀ (request : Request) (token : Option String),
        (w.step .enforced (.request request token)).store.privileges ≠ w.store.privileges →
          w.IsHeldByAdmin token) ∧
      (s.HasNoAdmin → w.store.privileges = s.privileges) := by
  intro w
  constructor
  · intro request token hne
    exact Classical.byContradiction fun hno => hne (World.privileges_step_request hno request)
  · intro hno
    refine World.run_invariant (P := fun w' => w'.store.privileges = s.privileges) ?_ rfl
    -- equal privileges mean that there is still no admin
    intro a ha w' hw'
    have hstep := World.privileges_step (hno.congr hw') (h a ha)
    exact hstep.trans hw'

/-- A developer who asks for the privileged role does not get it; an admin who asks for it gets the
repositories. -/
theorem promotion_asks_for_admins :
    let forge (role : String) := Store.ofRecords [⟨"u1", "dev", "pw", "dev@forge", some role, []⟩]
      [⟨"r1", "tools", 5, "Rust", true, none⟩]
    let login : Action := .login "t1" "dev" "pw"
    let promotion : Action := .request
      (.ofQuery "mutation \x7b promoteUser(userId: \"u1\", role: \"admin\") \x7d") (some "t1")
    let w := (World.start (forge "admin")).run .enforced [login]
    ((World.start (forge "developer")).run .enforced [login, promotion]).store.privileges
        = (forge "developer").privileges ∧
      (w.step .enforced promotion).store.privileges ≠ w.store.privileges ∧
      w.IsHeldByAdmin (some "t1") := by
  intro forge login promotion w
  have hno : (forge "developer").HasNoAdmin := by
    unfold Store.HasNoAdmin
    decide
  have hchange : (w.step .enforced promotion).store.privileges ≠ w.store.privileges := by
    decide +kernel
  have hdeveloper := enforced_privileges (forge "developer") [login, promotion]
    (by simp [login, promotion, Action.IsThroughSession])
  have hadmin := enforced_privileges (forge "admin") [login]
    (by simp [login, Action.IsThroughSession])
  exact ⟨hdeveloper.2 hno, hchange, hadmin.1 _ _ hchange⟩

end ForgeQuery
