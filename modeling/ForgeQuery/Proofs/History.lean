import ForgeQuery.Proofs.Calls

/-!
# The store as a function of history

The history of a run is the list of the calls that were resolved, each with the caller that it was
resolved for: calls behind an error and the call that failed are no part of it, calls before an
error are. A history settles the store that a run ends with (`store_follows_history`). Users and
repositories keep their places, and of a user nothing changes but

* the mail address, which is the last one that the user asked for,
* the role, which is the last one that somebody gave,
* the owned repositories, which are all of them once the privileged role has been given.

Nothing but a mutation with a caller changes the store (`tryExecute_unchanged`).
-/

namespace ForgeQuery

/-! ## Histories -/

/-- A call that was resolved, and the caller that it was resolved for. -/
structure Resolution where
  /-- the caller of the request -/
  caller : Option Caller
  /-- the call -/
  call : Call
  deriving DecidableEq

namespace Resolution

/-- The mail address that the resolution gives to the user with an id. -/
def emailFor? (id : String) (r : Resolution) : Option String :=
  if r.call.root = .updateProfile ∧ r.caller.map Caller.id = some id then r.call.field.newEmail?
  else none

/-- The role, which may be none at all, that the resolution gives to the user with an id. -/
def roleFor? (id : String) (r : Resolution) : Option (Option String) :=
  if r.call.root = .promoteUser ∧ r.call.field.argument? "userId" = some id then
    some (r.call.field.argument? "role")
  else none

/-- Whether the resolution gives every repository to the user with an id. -/
def grantsTo (id : String) (r : Resolution) : Bool := r.roleFor? id == some (some adminRole)

end Resolution

/-- A user at the end of a history, in a store with the given repositories. -/
def User.following (repoIds : List String) (h : List Resolution) (u : User) : User :=
  { u with
    email := (h.filterMap (Resolution.emailFor? u.id)).getLast?.getD u.email
    role := (h.filterMap (Resolution.roleFor? u.id)).getLast?.getD u.role
    repos := if h.any (Resolution.grantsTo u.id) then repoIds else u.repos }

/-- A store at the end of a history. -/
def Store.following (h : List Resolution) (s : Store) : Store where
  users := ⟨s.users.entries.map fun e => (e.1, e.2.following s.repoIds h), by
    rw [List.map_map]
    exact s.users.distinct⟩
  repos := s.repos

/-- The calls of a list that are resolved, which are all of them or those in front of the first
error. -/
def resolved (ctx : Context) : List Call → Store → List Call
  | [], _ => []
  | c :: rest, s =>
    match (c.resolve ctx).result s with
    | .error _ => []
    | .ok _ => c :: resolved ctx rest ((c.resolve ctx).after s)

/-- What a request adds to the history. -/
def Request.resolutions (policy : Policy) (s : Store) (request : Request)
    (caller : Option Caller) : List Resolution :=
  match request.document with
  | .error _ => []
  | .ok doc => (resolved ⟨policy, caller⟩ doc.calls s).map (Resolution.mk caller)

/-- The store after a list of requests, each with its caller. -/
def executeAll (policy : Policy) : Store → List (Request × Option Caller) → Store
  | s, [] => s
  | s, (request, caller) :: rest =>
    executeAll policy (execute policy s request caller).store rest

/-- The history of a list of requests, each with its caller. -/
def history (policy : Policy) : Store → List (Request × Option Caller) → List Resolution
  | _, [] => []
  | s, (request, caller) :: rest =>
    request.resolutions policy s caller
      ++ history policy (execute policy s request caller).store rest

/-! ## Histories one after the other -/

/-- A user that nothing in the history is about. -/
theorem User.following_eq_self {u : User} {h : List Resolution}
    (hemail : ∀ r ∈ h, r.emailFor? u.id = none) (hrole : ∀ r ∈ h, r.roleFor? u.id = none)
    (repoIds : List String) : u.following repoIds h = u := by
  have hgrants : h.any (Resolution.grantsTo u.id) = false := by
    rw [List.any_eq_false]
    intro r hr
    rw [Resolution.grantsTo, hrole r hr]
    decide
  rw [User.following, List.filterMap_eq_nil_iff.mpr hemail, List.filterMap_eq_nil_iff.mpr hrole,
    hgrants]
  rfl

/-- A history of a single resolution. -/
theorem User.following_singleton (repoIds : List String) (r : Resolution) (u : User) :
    u.following repoIds [r] =
      { u with
        email := (r.emailFor? u.id).getD u.email
        role := (r.roleFor? u.id).getD u.role
        repos := if r.grantsTo u.id then repoIds else u.repos } := by
  unfold User.following
  rw [List.any_cons, List.any_nil, Bool.or_false]
  cases hemail : r.emailFor? u.id <;> cases hrole : r.roleFor? u.id <;> simp [hemail, hrole]

/-- Two histories one after the other are one. -/
theorem User.following_append (repoIds : List String) (h₁ h₂ : List Resolution) (u : User) :
    u.following repoIds (h₁ ++ h₂) = (u.following repoIds h₁).following repoIds h₂ := by
  unfold User.following
  simp only [List.filterMap_append, List.getLast?_append, List.any_append, Option.getD_or]
  cases h₁.any (Resolution.grantsTo u.id) <;> cases h₂.any (Resolution.grantsTo u.id) <;> rfl

/-- Stores with the same users at the same places and the same repositories are equal. -/
theorem Store.ext_entries {s s' : Store} (husers : s.users.entries = s'.users.entries)
    (hrepos : s.repos = s'.repos) : s = s' := by
  obtain ⟨users, repos⟩ := s
  obtain ⟨users', repos'⟩ := s'
  obtain rfl : users = users' := Ordered.ext husers
  obtain rfl : repos = repos' := hrepos
  rfl

theorem Store.entries_following (h : List Resolution) (s : Store) :
    (s.following h).users.entries
      = s.users.entries.map fun e => (e.1, e.2.following s.repoIds h) := rfl

/-- Nothing happens to a store when nothing happens to its users. -/
theorem Store.following_eq_self {s : Store} {h : List Resolution}
    (hu : ∀ u : User, u.following s.repoIds h = u) : s.following h = s := by
  refine Store.ext_entries ?_ rfl
  rw [Store.entries_following]
  simp only [hu]
  exact List.map_id' _

theorem Store.following_nil (s : Store) : s.following [] = s :=
  Store.following_eq_self fun u => User.following_eq_self (by simp) (by simp) s.repoIds

theorem Store.following_append (h₁ h₂ : List Resolution) (s : Store) :
    s.following (h₁ ++ h₂) = (s.following h₁).following h₂ := by
  refine Store.ext_entries ?_ rfl
  simp only [Store.entries_following, List.map_map]
  refine List.map_congr_left fun e _ => ?_
  exact Prod.ext rfl (User.following_append s.repoIds h₁ h₂ e.2)

/-! ## Records under their own ids -/

/-- Whether every user is kept under the id of the record. -/
def Store.IsKeyed (s : Store) : Prop := ∀ e ∈ s.users.entries, e.2.id = e.1

theorem Store.isKeyed_ofRecords (users : List User) (repos : List Repo) :
    (Store.ofRecords users repos).IsKeyed := by
  intro e he
  obtain ⟨u, -, rfl⟩ := List.mem_map.mp (Ordered.mem_ofList he)
  rfl

/-- No history gives a user another id. -/
theorem Store.IsKeyed.following {s : Store} (hs : s.IsKeyed) (h : List Resolution) :
    (s.following h).IsKeyed := by
  intro e he
  obtain ⟨e₀, he₀, rfl⟩ := List.mem_map.mp he
  exact hs e₀ he₀

/-- A change of one user is a history if the history is about that user alone. -/
theorem Store.IsKeyed.updateUser_eq {s : Store} (hs : s.IsKeyed) {id : String}
    {change : User → User} {h : List Resolution}
    (hin : ∀ u : User, u.id = id → u.following s.repoIds h = change u)
    (hout : ∀ u : User, u.id ≠ id → u.following s.repoIds h = u) :
    s.updateUser id change = s.following h := by
  refine Store.ext_entries (List.map_congr_left fun e he => ?_) rfl
  have hid : e.2.id = e.1 := hs e he
  by_cases hk : e.1 = id
  · rw [if_pos hk, hin e.2 (hid.trans hk)]
  · rw [if_neg hk, hout e.2 (hid ▸ hk)]

/-! ## What a resolution does -/

namespace Resolution

variable {id : String} {caller : Option Caller} {root : RootField} {field : FieldExpression}

/-- Only profile updates give mail addresses. -/
theorem emailFor?_of_ne (h : root ≠ .updateProfile) :
    emailFor? id ⟨caller, ⟨root, field⟩⟩ = none :=
  if_neg fun hand => h hand.1

/-- Only promotions give roles. -/
theorem roleFor?_of_ne (h : root ≠ .promoteUser) : roleFor? id ⟨caller, ⟨root, field⟩⟩ = none :=
  if_neg fun hand => h hand.1

end Resolution

/-- A profile update is a history for the caller alone. -/
theorem Store.IsKeyed.mailed_eq {s : Store} (hs : s.IsKeyed) (caller : Caller)
    (field : FieldExpression) :
    s.mailed caller.id field.newEmail?
      = s.following [⟨some caller, ⟨.updateProfile, field⟩⟩] := by
  cases hemail : field.newEmail? with
  | none =>
    refine (Store.following_eq_self fun u => User.following_eq_self ?_ ?_ _).symm
    · simp [Resolution.emailFor?, hemail]
    · simp [Resolution.roleFor?]
  | some email =>
    refine hs.updateUser_eq (fun u hu => ?_) fun u hu => ?_
    · rw [User.following_singleton]
      simp [Resolution.emailFor?, Resolution.roleFor?, Resolution.grantsTo, hu, hemail]
    · refine User.following_eq_self ?_ ?_ _
      · simp [Resolution.emailFor?, Ne.symm hu]
      · simp [Resolution.roleFor?]

/-- A promotion is a history for its target alone, whoever asks for it. -/
theorem Store.IsKeyed.promoted_eq {s : Store} (hs : s.IsKeyed) (caller : Option Caller)
    {field : FieldExpression} {target : String} (h : field.argument? "userId" = some target) :
    s.updateUser target (User.promoted s.repoIds (field.argument? "role"))
      = s.following [⟨caller, ⟨.promoteUser, field⟩⟩] := by
  refine hs.updateUser_eq (fun u hu => ?_) fun u hu => ?_
  · rw [User.following_singleton, User.promoted]
    by_cases hadmin : field.argument? "role" = some adminRole
    · simp [Resolution.emailFor?, Resolution.roleFor?, Resolution.grantsTo, hu, h, hadmin]
    · simp [Resolution.emailFor?, Resolution.roleFor?, Resolution.grantsTo, hu, h, hadmin]
  · refine User.following_eq_self ?_ ?_ _
    · simp [Resolution.emailFor?]
    · simp [Resolution.roleFor?, h, Ne.symm hu]

/-- **A resolved call is a history by itself.** -/
theorem Course.eq_following {root : RootField} {ctx : Context} {field : FieldExpression}
    {s s' : Store} {v : Json} (h : Course root ctx field s (.ok v) s') (hs : s.IsKeyed) :
    s' = s.following [⟨ctx.caller, ⟨root, field⟩⟩] := by
  cases h with
  | answered _ hkind =>
    -- a query gives nothing to anybody
    have hupdate : root ≠ .updateProfile := by
      rintro rfl
      cases hkind
    have hpromote : root ≠ .promoteUser := by
      rintro rfl
      cases hkind
    refine (Store.following_eq_self fun u => User.following_eq_self ?_ ?_ _).symm
    · simp [Resolution.emailFor?_of_ne hupdate]
    · simp [Resolution.roleFor?_of_ne hpromote]
  | mailed caller _ hroot hknown =>
    -- the history has the caller of the request, who is the one that is updated
    rw [hroot, hknown]
    exact hs.mailed_eq caller field
  | promoted caller target user _ hroot hknown _ hnamed =>
    rw [hroot]
    exact hs.promoted_eq ctx.caller hnamed

/-- A call that fails changes nothing. -/
theorem Course.eq_of_error {root : RootField} {ctx : Context} {field : FieldExpression}
    {s s' : Store} {e : ExecutionError} (h : Course root ctx field s (.error e) s') : s' = s := by
  cases h
  rfl

theorem Call.after_of_error {ctx : Context} {c : Call} {s : Store} {e : ExecutionError}
    (h : (c.resolve ctx).result s = .error e) : (c.resolve ctx).after s = s := by
  have hcourse := c.course ctx s
  rw [h] at hcourse
  exact hcourse.eq_of_error

/-! ## Runs -/

/-- Performed calls are the history of those that are resolved. -/
theorem perform_eq_following (ctx : Context) (calls : List Call) {s : Store} (hs : s.IsKeyed) :
    (perform ctx calls s).2
      = s.following ((resolved ctx calls s).map (Resolution.mk ctx.caller)) := by
  induction calls generalizing s with
  | nil => exact (Store.following_nil s).symm
  | cons c rest ih =>
    rw [resolved]
    cases hr : (c.resolve ctx).result s with
    | error e =>
      rw [perform_cons_error hr, Call.after_of_error hr]
      exact (Store.following_nil s).symm
    | ok v =>
      have hcourse := c.course ctx s
      rw [hr] at hcourse
      rw [perform_cons_ok hr, hcourse.eq_following hs, ih (hs.following _), List.map_cons,
        ← Store.following_append]
      rfl

/-- A document about the schema has no calls. -/
theorem Document.calls_of_introspection {doc : Document} (h : doc.kind = .introspection) :
    doc.calls = [] := by
  refine List.eq_nil_iff_forall_not_mem.mpr fun c hc => ?_
  have hkind := Document.kind_of_mem_calls hc
  rw [h] at hkind
  cases hroot : c.root <;> rw [hroot] at hkind <;> cases hkind

theorem execute_eq_following (policy : Policy) {s : Store} (hs : s.IsKeyed) (request : Request)
    (caller : Option Caller) :
    (execute policy s request caller).store
      = s.following (request.resolutions policy s caller) := by
  refine (tryExecute_store policy s request caller).trans ?_
  rw [Request.outcome, Request.resolutions]
  cases request.document with
  | error e => exact (Store.following_nil s).symm
  | ok doc =>
    simp only [Document.outcome]
    cases hk : doc.kind with
    | introspection =>
      rw [Document.calls_of_introspection hk]
      exact (Store.following_nil s).symm
    | query | mutation => exact perform_eq_following ⟨policy, caller⟩ doc.calls hs

theorem executeAll_eq_following (policy : Policy) {s : Store} (hs : s.IsKeyed)
    (requests : List (Request × Option Caller)) :
    executeAll policy s requests = s.following (history policy s requests) := by
  induction requests generalizing s with
  | nil => exact (Store.following_nil s).symm
  | cons r rest ih =>
    obtain ⟨request, caller⟩ := r
    have hrequest := execute_eq_following policy hs request caller
    have hkeyed : (execute policy s request caller).store.IsKeyed := by
      rw [hrequest]
      exact hs.following _
    rw [executeAll, history, ih hkeyed, Store.following_append, ← hrequest]

/-- A request without a caller, and one that is no mutation, leaves the store as it is. -/
theorem tryExecute_unchanged (policy : Policy) (s : Store) {request : Request}
    {caller : Option Caller}
    (h : caller = none ∨ ∀ doc, request.document = .ok doc → doc.kind ≠ .mutation) :
    (tryExecute policy s request caller).store = s := by
  refine tryExecute_invariant (P := fun s' => s' = s) ?_ rfl
  intro doc hdoc c hc s₁ hs₁
  refine ((c.course ⟨policy, caller⟩ s₁).unchanged (h.imp_right fun hno => ?_)).trans hs₁
  rw [Document.kind_of_mem_calls hc]
  exact hno doc hdoc

/-- **The store is a function of history**, for every list of requests from a store of records kept
under their own ids, and only mutations with a caller make it another one. -/
theorem store_follows_history (policy : Policy) (users : List User) (repos : List Repo)
    (requests : List (Request × Option Caller)) :
    let s := Store.ofRecords users repos
    s.IsKeyed ∧ executeAll policy s requests = s.following (history policy s requests) ∧
      ∀ (s₀ : Store) (request : Request) (caller : Option Caller),
        (caller = none ∨ ∀ doc, request.document = .ok doc → doc.kind ≠ .mutation) →
          (execute policy s₀ request caller).store = s₀ := by
  intro s
  have hs : s.IsKeyed := Store.isKeyed_ofRecords users repos
  refine ⟨hs, executeAll_eq_following policy hs requests, ?_⟩
  intro s₀ request caller h
  exact tryExecute_unchanged policy s₀ h

/-- A demoted admin has kept the repositories, although the request has failed behind the demotion;
without a caller the same request has done nothing. -/
theorem history_of_demotion :
    let s := Store.ofRecords [⟨"u", "dev", "pw", "dev@forge", some "developer", []⟩]
      [⟨"r1", "tools", 5, "Rust", true, none⟩]
    let dev : Caller := ⟨"u", some "developer", []⟩
    let request := Request.ofQuery ("mutation \x7b promoteUser(userId: \"u\", role: \"admin\"), "
      ++ "promoteUser(userId: \"u\"), promoteUser \x7d")
    (executeAll .permissive s [(request, some dev)]).user? "u"
        = some ⟨"u", "dev", "pw", "dev@forge", none, ["r1"]⟩ ∧
      (execute .permissive s request none).store = s := by
  intro s dev request
  obtain ⟨-, hrun, hunchanged⟩ := store_follows_history .permissive
    [⟨"u", "dev", "pw", "dev@forge", some "developer", []⟩]
    [⟨"r1", "tools", 5, "Rust", true, none⟩] [(request, some dev)]
  refine ⟨?_, hunchanged s request none (Or.inl rfl)⟩
  rw [hrun]
  decide +kernel

end ForgeQuery
