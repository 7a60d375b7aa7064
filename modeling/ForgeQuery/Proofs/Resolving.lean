import ForgeQuery.Execution.Resolver

/-!
# What a run comes to

A run only adds reports and never looks at them, so what it comes to is settled by the store it
starts on. `Run.Ends m s r s'` says that the run `m` on the store `s` ends with the result `r` and
leaves the store `s'`, whatever has been reported before; `Run.result` and `Run.after` are this
result and this store.

There is one statement of this kind for each resolver. Together they say all that a resolver does:
queries leave the store as it is, `updateProfile` is `Store.mailed`, and `promoteUser` refuses,
does not find its target, or promotes it.
-/

namespace ForgeQuery

namespace Run

variable {α β : Type}

/-- The result of a run on a store. -/
def result (m : Run α) (s : Store) : Except ExecutionError α := (m.run.run ⟨s, []⟩).1

/-- The store that a run leaves. -/
def after (m : Run α) (s : Store) : Store := (m.run.run ⟨s, []⟩).2.store

/-- On the store `s` the run ends with the result `r` and leaves the store `s'`, whatever has been
reported before. -/
def Ends (m : Run α) (s : Store) (r : Except ExecutionError α) (s' : Store) : Prop :=
  ∃ reported, ∀ before, m.run.run ⟨s, before⟩ = (r, ⟨s', before ++ reported⟩)

theorem run_bind (m : Run α) (f : α → Run β) (p : Progress) :
    (m >>= f).run.run p =
      match m.run.run p with
      | (.ok a, q) => (f a).run.run q
      | (.error e, q) => (.error e, q) := by
  rw [ExceptT.run_bind, StateT.run_bind]
  rcases m.run.run p with ⟨r, q⟩
  cases r <;> rfl

namespace Ends

theorem result_eq {m : Run α} {s s' : Store} {r : Except ExecutionError α} (h : m.Ends s r s') :
    m.result s = r := by
  obtain ⟨reported, h⟩ := h
  exact congrArg Prod.fst (h [])

theorem after_eq {m : Run α} {s s' : Store} {r : Except ExecutionError α} (h : m.Ends s r s') :
    m.after s = s' := by
  obtain ⟨reported, h⟩ := h
  exact congrArg (fun o => o.2.store) (h [])

/-- A run that ends with a value ends with no other one. -/
theorem eq_of_result {m : Run α} {s s' : Store} {a b : α} (h : m.Ends s (.ok a) s')
    (hb : m.result s = .ok b) : b = a :=
  Except.ok.inj (hb.symm.trans h.result_eq)

/-- A run that ends somehow ends with its own result and its own store. -/
theorem settled {m : Run α} {s s' : Store} {r : Except ExecutionError α} (h : m.Ends s r s') :
    m.Ends s (m.result s) (m.after s) := by
  rwa [h.result_eq, h.after_eq]

protected theorem pure (a : α) (s : Store) : (pure a : Run α).Ends s (.ok a) s :=
  ⟨[], fun before => by rw [List.append_nil]; rfl⟩

protected theorem throw (e : ExecutionError) (s : Store) :
    (throw e : Run α).Ends s (.error e) s :=
  ⟨[], fun before => by rw [List.append_nil]; rfl⟩

theorem report (e : Event) (s : Store) : (Run.report e).Ends s (.ok ()) s :=
  ⟨[e], fun _ => rfl⟩

theorem store (s : Store) : Run.store.Ends s (.ok s) s :=
  ⟨[], fun before => by rw [List.append_nil]; rfl⟩

theorem updateUser (id : String) (change : User → User) (s : Store) :
    (Run.updateUser id change).Ends s (.ok ()) (s.updateUser id change) :=
  ⟨[], fun before => by rw [List.append_nil]; rfl⟩

/-- What follows a run starts on the store that the run leaves. -/
protected theorem bind {m : Run α} {f : α → Run β} {s s₁ s₂ : Store} {a : α}
    {r : Except ExecutionError β} (hm : m.Ends s (.ok a) s₁) (hf : (f a).Ends s₁ r s₂) :
    (m >>= f).Ends s r s₂ := by
  obtain ⟨reported₁, h₁⟩ := hm
  obtain ⟨reported₂, h₂⟩ := hf
  refine ⟨reported₁ ++ reported₂, fun before => ?_⟩
  rw [run_bind, h₁, ← List.append_assoc]
  exact h₂ (before ++ reported₁)

/-- Nothing follows a run that ends with an error. -/
theorem bind_error {m : Run α} {f : α → Run β} {s s₁ : Store} {e : ExecutionError}
    (hm : m.Ends s (.error e) s₁) : (m >>= f).Ends s (.error e) s₁ := by
  obtain ⟨reported, h⟩ := hm
  refine ⟨reported, fun before => ?_⟩
  rw [run_bind, h]

/-- A report that is made or left out makes no difference. -/
theorem reportIf {c : Prop} [Decidable c] {e : Event} {k : Unit → Run α} {s s' : Store}
    {r : Except ExecutionError α} (h : (k ()).Ends s r s') :
    (if c then Run.report e >>= k else k ()).Ends s r s' := by
  by_cases hc : c
  · rw [if_pos hc]
    exact (Ends.report e s).bind h
  · rwa [if_neg hc]

/-- Reading runs one after the other collect their values. -/
theorem mapM {γ : Type} {f : γ → Run α} {g : γ → α} {s : Store}
    (h : ∀ x, (f x).Ends s (.ok (g x)) s) (l : List γ) :
    (l.mapM f).Ends s (.ok (l.map g)) s := by
  induction l with
  | nil => exact Ends.pure [] s
  | cons x l ih =>
    rw [List.mapM_cons]
    exact (h x).bind (ih.bind (Ends.pure _ s))

end Ends

end Run

/-! ## Answers -/

theorem answer_ends {φ : Type} [DecidableEq φ] [Fields φ] (e : Entity φ) (sub : Option Text)
    (s : Store) : (answer e sub).Ends s (.ok (e.project sub)) s := by
  unfold answer
  by_cases h : e.isUnmatched sub = true
  · rw [if_pos h]
    exact (Run.Ends.report _ s).bind (Run.Ends.pure _ s)
  · rw [if_neg h]
    exact Run.Ends.pure _ s

/-- What is shown of the user with an id under a sub-selection: `null` without an id, and for an id
that is not known. -/
def Store.shown (s : Store) (view : User → Entity UserField) (id : Option String)
    (sub : Option Text) : Json :=
  match id.bind s.user? with
  | none => .null
  | some user => (view user).project sub

/-- An object that is shown of a user is what is left of some user. -/
theorem Store.exists_user_of_shown {s : Store} {view : User → Entity UserField} {id : Option String}
    {sub : Option Text} {members : List (String × Json)}
    (h : s.shown view id sub = .object members) : ∃ u, (view u).project sub = .object members := by
  unfold Store.shown at h
  cases hu : id.bind s.user? with
  | none =>
    rw [hu] at h
    cases h
  | some u =>
    rw [hu] at h
    exact ⟨u, h⟩

/-- What is shown of the repository with an id, for a caller who may read the ids that `readable`
allows. -/
def Store.shownRepo (s : Store) (readable : String → Bool) (id : Option String)
    (sub : Option Text) : Json :=
  match id.bind s.repo? with
  | none => .null
  | some repo => if readable repo.id then repo.entity.project sub else .null

/-! ## Queries -/

variable (policy : Policy) (caller : Caller) (field : FieldExpression) (s : Store)

theorem resolveMe_ends (ctx : Context) :
    (resolveMe ctx field).Ends s
      (.ok (s.shown User.entity (ctx.caller.map Caller.id) field.subSelection)) s := by
  unfold resolveMe Store.shown
  cases ctx.caller with
  | none => exact Run.Ends.pure _ s
  | some caller =>
    refine (Run.Ends.store s).bind ?_
    rw [Option.map_some, Option.bind_some]
    cases s.user? caller.id with
    | none => exact Run.Ends.pure _ s
    | some user => exact answer_ends _ _ s

theorem resolveUser_ends :
    (resolveUser ⟨policy, some caller⟩ field).Ends s
      (.ok (s.shown User.entity (field.argument? "id") field.subSelection)) s := by
  unfold resolveUser Store.shown
  refine (Run.Ends.pure caller s).bind ((Run.Ends.store s).bind ?_)
  cases (field.argument? "id").bind s.user? with
  | none => exact Run.Ends.pure _ s
  | some user => exact answer_ends _ _ s

theorem resolveRepos_ends :
    (resolveRepos ⟨policy, some caller⟩ field).Ends s
      (.ok (.array ((caller.repos.filterMap s.repo?).map fun repo =>
        repo.entity.project field.subSelection))) s := by
  unfold resolveRepos
  refine (Run.Ends.pure caller s).bind ((Run.Ends.store s).bind ?_)
  exact (Run.Ends.mapM (fun repo : Repo => answer_ends repo.entity field.subSelection s) _).bind
    (Run.Ends.pure _ s)

theorem resolveRepo_ends :
    (resolveRepo ⟨policy, some caller⟩ field).Ends s
      (.ok (s.shownRepo (policy.canReadRepo caller) (field.argument? "id") field.subSelection))
      s := by
  unfold resolveRepo Store.shownRepo
  refine (Run.Ends.pure caller s).bind ((Run.Ends.store s).bind ?_)
  cases (field.argument? "id").bind s.repo? with
  | none => exact Run.Ends.pure _ s
  | some repo =>
    by_cases h : policy.canReadRepo caller repo.id = true
    · simp only [if_pos h]
      exact answer_ends _ _ s
    · simp only [if_neg h]
      exact (Run.Ends.report _ s).bind (Run.Ends.pure _ s)

/-! ## Mutations -/

/-- The address that a profile update asks for. An empty one counts as none. -/
def FieldExpression.newEmail? : Option String :=
  (field.argument? "email").filter fun email => email ≠ ""

/-- The store after a user's profile update. -/
def Store.mailed (id : String) : Option String → Store
  | none => s
  | some email => s.updateUser id fun user => { user with email }

theorem resolveUpdateProfile_ends :
    (resolveUpdateProfile ⟨policy, some caller⟩ field).Ends s
      (.ok ((s.mailed caller.id field.newEmail?).shown User.profileEntity (some caller.id)
        field.subSelection))
      (s.mailed caller.id field.newEmail?) := by
  have hread (s' : Store) :
      (do
        match (← Run.store).user? caller.id with
        | none => pure Json.null
        | some user => answer user.profileEntity field.subSelection : Run Json).Ends s'
          (.ok (s'.shown User.profileEntity (some caller.id) field.subSelection)) s' := by
    refine (Run.Ends.store s').bind ?_
    rw [Store.shown, Option.bind_some]
    cases s'.user? caller.id with
    | none => exact Run.Ends.pure _ s'
    | some user => exact answer_ends _ _ s'
  unfold resolveUpdateProfile
  refine (Run.Ends.pure caller s).bind ?_
  rw [FieldExpression.newEmail?]
  cases (field.argument? "email").filter fun email => email ≠ "" with
  | none => exact hread s
  | some email => exact (Run.Ends.updateUser caller.id _ s).bind (hread _)

/-- Who may not promote is refused, whatever the arguments are. -/
theorem resolvePromoteUser_forbidden
    (h : policy.canPromote caller (field.argument? "role") = false) :
    (resolvePromoteUser ⟨policy, some caller⟩ field).Ends s
      (.error (.forbidden RootField.promoteUser.name)) s := by
  unfold resolvePromoteUser
  refine (Run.Ends.pure caller s).bind (Run.Ends.reportIf ?_)
  simp only [h, Bool.not_false, if_true]
  exact Run.Ends.throw _ s

/-- Without a known target nothing is changed. -/
theorem resolvePromoteUser_unknown
    (h : policy.canPromote caller (field.argument? "role") = true)
    (ht : (field.argument? "userId").bind s.user? = none) :
    (resolvePromoteUser ⟨policy, some caller⟩ field).Ends s
      (.error (.targetNotFound (field.argument? "userId"))) s := by
  unfold resolvePromoteUser
  refine (Run.Ends.pure caller s).bind (Run.Ends.reportIf ?_)
  simp only [h, Bool.not_true, Bool.false_eq_true, if_false]
  refine (Run.Ends.store s).bind ?_
  cases htarget : field.argument? "userId" with
  | none => exact Run.Ends.throw _ s
  | some target =>
    rw [htarget, Option.bind_some] at ht
    simp only [ht]
    exact Run.Ends.throw _ s

/-- A known target is promoted. -/
theorem resolvePromoteUser_promoted
    (h : policy.canPromote caller (field.argument? "role") = true) {target : String} {user : User}
    (ht : field.argument? "userId" = some target) (hu : s.user? target = some user) :
    (resolvePromoteUser ⟨policy, some caller⟩ field).Ends s
      (.ok ((user.promoted s.repoIds (field.argument? "role")).entity.project field.subSelection))
      (s.updateUser target (User.promoted s.repoIds (field.argument? "role"))) := by
  unfold resolvePromoteUser
  refine (Run.Ends.pure caller s).bind (Run.Ends.reportIf ?_)
  simp only [h, Bool.not_true, Bool.false_eq_true, if_false, ht]
  refine (Run.Ends.store s).bind ?_
  simp only [hu]
  exact (Run.Ends.updateUser target _ s).bind ((Run.Ends.report _ _).bind (answer_ends _ _ _))

/-- A promotion that goes through had a caller who may promote and a known target. -/
theorem resolvePromoteUser_eq_ok {policy : Policy} {caller : Caller} {field : FieldExpression}
    {s : Store} {v : Json}
    (h : (resolvePromoteUser ⟨policy, some caller⟩ field).result s = .ok v) :
    ∃ target user, policy.canPromote caller (field.argument? "role") = true ∧
      field.argument? "userId" = some target ∧ s.user? target = some user ∧
      v = (user.promoted s.repoIds (field.argument? "role")).entity.project field.subSelection := by
  by_cases hmay : policy.canPromote caller (field.argument? "role") = true
  · cases htarget : (field.argument? "userId").bind s.user? with
    | none =>
      rw [(resolvePromoteUser_unknown policy caller field s hmay htarget).result_eq] at h
      cases h
    | some user =>
      obtain ⟨target, hnamed, hfound⟩ := Option.bind_eq_some_iff.mp htarget
      rw [(resolvePromoteUser_promoted policy caller field s hmay hnamed hfound).result_eq] at h
      exact ⟨target, user, hmay, hnamed, hfound, (Except.ok.inj h).symm⟩
  · have hno := Bool.eq_false_iff.mpr hmay
    rw [(resolvePromoteUser_forbidden policy caller field s hno).result_eq] at h
    cases h

/-! ## All root fields -/

/-- Without a caller every root field but `me` is refused. -/
theorem resolve_anonymous (root : RootField) (h : root.requiresCaller = true) :
    (root.resolve ⟨policy, none⟩ field).Ends s (.error (.unauthenticated root.name)) s := by
  have hthrow {α : Type} (f : Caller → Run α) :
      (Context.authenticated ⟨policy, none⟩ root >>= f).Ends s
        (.error (.unauthenticated root.name)) s :=
    Run.Ends.bind_error (Run.Ends.throw _ s)
  cases root with
  | me => cases h
  | user => exact hthrow _
  | repos => exact hthrow _
  | repo => exact hthrow _
  | updateProfile => exact hthrow _
  | promoteUser => exact hthrow _

/-- A root field that needs a caller and is answered has had one. -/
theorem exists_caller_of_resolve {root : RootField} (hroot : root.requiresCaller = true)
    {ctx : Context} {field : FieldExpression} {s : Store} {v : Json}
    (h : (root.resolve ctx field).result s = .ok v) :
    ∃ policy caller, ctx = ⟨policy, some caller⟩ := by
  obtain ⟨policy, caller⟩ := ctx
  cases caller with
  | none =>
    rw [(resolve_anonymous policy field s root hroot).result_eq] at h
    cases h
  | some caller => exact ⟨policy, caller, rfl⟩

/-- What can be the value of a root field, of whichever store. -/
inductive RootField.Shows : RootField → Json → Prop
  /-- the caller, or nothing -/
  | me (s : Store) (id : Option String) (sub : Option Text) :
      Shows .me (s.shown User.entity id sub)
  /-- the user who is asked for, or nothing -/
  | user (s : Store) (id : Option String) (sub : Option Text) :
      Shows .user (s.shown User.entity id sub)
  /-- repositories -/
  | repos (rs : List Repo) (sub : Option Text) :
      Shows .repos (.array (rs.map fun r => r.entity.project sub))
  /-- the repository that is asked for, or nothing -/
  | repo (s : Store) (readable : String → Bool) (id : Option String) (sub : Option Text) :
      Shows .repo (s.shownRepo readable id sub)
  /-- the caller without the repositories, or nothing -/
  | updateProfile (s : Store) (id : Option String) (sub : Option Text) :
      Shows .updateProfile (s.shown User.profileEntity id sub)
  /-- the user who has been promoted -/
  | promoteUser (u : User) (sub : Option Text) : Shows .promoteUser (u.entity.project sub)

theorem shows_of_resolve {root : RootField} {ctx : Context} {field : FieldExpression} {s : Store}
    {v : Json} (h : (root.resolve ctx field).result s = .ok v) : root.Shows v := by
  cases root with
  | me =>
    obtain rfl := (resolveMe_ends field s ctx).eq_of_result h
    exact .me s _ _
  | user =>
    obtain ⟨policy, caller, rfl⟩ := exists_caller_of_resolve rfl h
    obtain rfl := (resolveUser_ends policy caller field s).eq_of_result h
    exact .user s _ _
  | repos =>
    obtain ⟨policy, caller, rfl⟩ := exists_caller_of_resolve rfl h
    obtain rfl := (resolveRepos_ends policy caller field s).eq_of_result h
    exact .repos _ _
  | repo =>
    obtain ⟨policy, caller, rfl⟩ := exists_caller_of_resolve rfl h
    obtain rfl := (resolveRepo_ends policy caller field s).eq_of_result h
    exact .repo s _ _ _
  | updateProfile =>
    obtain ⟨policy, caller, rfl⟩ := exists_caller_of_resolve rfl h
    obtain rfl := (resolveUpdateProfile_ends policy caller field s).eq_of_result h
    exact .updateProfile _ _ _
  | promoteUser =>
    obtain ⟨policy, caller, rfl⟩ := exists_caller_of_resolve rfl h
    obtain ⟨target, user, -, -, -, rfl⟩ := resolvePromoteUser_eq_ok h
    exact .promoteUser _ _

/-- The ways in which a root field can be resolved on the store `s`, with the result and the store
that each of them comes to. -/
inductive Course (root : RootField) (ctx : Context) (field : FieldExpression) (s : Store) :
    Except ExecutionError Json → Store → Prop
  /-- it ends with an error and nothing is changed -/
  | refused (e : ExecutionError) : Course root ctx field s (.error e) s
  /-- a query is answered and nothing is changed -/
  | answered (v : Json) (kind : root.kind = .query) : Course root ctx field s (.ok v) s
  /-- the caller's own address is changed, if there is a new one -/
  | mailed (caller : Caller) (v : Json) (update : root = .updateProfile)
      (known : ctx.caller = some caller) :
      Course root ctx field s (.ok v) (s.mailed caller.id field.newEmail?)
  /-- a known user is promoted by a caller who may do so -/
  | promoted (caller : Caller) (target : String) (user : User) (v : Json)
      (promotion : root = .promoteUser) (known : ctx.caller = some caller)
      (allowed : ctx.policy.canPromote caller (field.argument? "role") = true)
      (named : field.argument? "userId" = some target) (found : s.user? target = some user) :
      Course root ctx field s (.ok v)
        (s.updateUser target (User.promoted s.repoIds (field.argument? "role")))

/-- A promotion takes one of its three courses. -/
theorem resolvePromoteUser_course :
    ∃ r s', (resolvePromoteUser ⟨policy, some caller⟩ field).Ends s r s' ∧
      Course .promoteUser ⟨policy, some caller⟩ field s r s' := by
  by_cases h : policy.canPromote caller (field.argument? "role") = true
  · cases ht : (field.argument? "userId").bind s.user? with
    | none => exact ⟨_, _, resolvePromoteUser_unknown policy caller field s h ht, .refused _⟩
    | some user =>
      obtain ⟨target, hnamed, hfound⟩ := Option.bind_eq_some_iff.mp ht
      exact ⟨_, _, resolvePromoteUser_promoted policy caller field s h hnamed hfound,
        .promoted caller target user _ rfl rfl h hnamed hfound⟩
  · exact ⟨_, _, resolvePromoteUser_forbidden policy caller field s (Bool.eq_false_iff.mpr h),
      .refused _⟩

/-- **Every root field takes one of the courses**, whoever asks. -/
theorem resolve_course (root : RootField) (ctx : Context) :
    ∃ r s', (root.resolve ctx field).Ends s r s' ∧ Course root ctx field s r s' := by
  obtain ⟨policy, caller⟩ := ctx
  cases caller with
  | none =>
    by_cases h : root.requiresCaller = true
    · exact ⟨_, _, resolve_anonymous policy field s root h, .refused _⟩
    · cases root with
      | me => exact ⟨_, _, resolveMe_ends field s ⟨policy, none⟩, .answered _ rfl⟩
      | user | repos | repo | updateProfile | promoteUser => exact absurd rfl h
  | some caller =>
    cases root with
    | me => exact ⟨_, _, resolveMe_ends field s ⟨policy, some caller⟩, .answered _ rfl⟩
    | user => exact ⟨_, _, resolveUser_ends policy caller field s, .answered _ rfl⟩
    | repos => exact ⟨_, _, resolveRepos_ends policy caller field s, .answered _ rfl⟩
    | repo => exact ⟨_, _, resolveRepo_ends policy caller field s, .answered _ rfl⟩
    | updateProfile =>
      exact ⟨_, _, resolveUpdateProfile_ends policy caller field s, .mailed caller _ rfl rfl⟩
    | promoteUser => exact resolvePromoteUser_course policy caller field s

/-- What a root field comes to does not hang on earlier reports. -/
theorem resolve_ends (root : RootField) (ctx : Context) :
    (root.resolve ctx field).Ends s ((root.resolve ctx field).result s)
      ((root.resolve ctx field).after s) := by
  obtain ⟨r, s', h, -⟩ := resolve_course field s root ctx
  exact h.settled

theorem course_resolve (root : RootField) (ctx : Context) :
    Course root ctx field s ((root.resolve ctx field).result s)
      ((root.resolve ctx field).after s) := by
  obtain ⟨r, s', h, hc⟩ := resolve_course field s root ctx
  rwa [h.result_eq, h.after_eq]

/-- Nothing but a mutation with a caller changes the store. -/
theorem Course.unchanged {root : RootField} {ctx : Context} {field : FieldExpression} {s s' : Store}
    {r : Except ExecutionError Json} (h : Course root ctx field s r s')
    (hno : ctx.caller = none ∨ root.kind ≠ .mutation) : s' = s := by
  -- the two courses that write have a caller and are those of a mutation
  have hwrite (hkind : root.kind = .mutation) (caller : Caller)
      (hknown : ctx.caller = some caller) : False := by
    rcases hno with hnone | hno
    · rw [hnone] at hknown
      cases hknown
    · exact hno hkind
  cases h with
  | refused => rfl
  | answered => rfl
  | mailed caller v hroot hknown => exact (hwrite (hroot ▸ rfl) caller hknown).elim
  | promoted caller target user v hroot hknown => exact (hwrite (hroot ▸ rfl) caller hknown).elim

end ForgeQuery
