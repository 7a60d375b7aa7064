import ForgeQuery.Proofs.Calls

/-!
# What a request can see of a store

Two stores are alike for a context if they agree in everything that a request of that context can
see: in the users but for their passwords, in the caller's repositories, in the repositories that
the policy lets the caller ask for by their ids, and in the ids that a promotion gives away, if the
caller may promote at all. On stores that are alike every request comes to the same result and
leaves stores that are alike again (`Store.Alike.tryExecute`).

What a request writes is told column by column: `Store.column` is what is kept of each user under a
function of the record. Profile updates and promotions leave a column alone when the function
depends neither on the mail address nor on the role and the repositories
(`Store.column_tryExecute`).
-/

namespace ForgeQuery

/-! ## Columns of the table of users -/

namespace Store

variable {α : Type}

/-- What a function takes of every user, in order and under the users' ids. -/
def column (s : Store) (f : User → α) : List (String × α) :=
  s.users.entries.map fun e => (e.1, f e.2)

theorem find?_column (s : Store) (f : User → α) (id : String) :
    Ordered.find? id (s.column f) = (s.user? id).map f := by
  unfold column user? Ordered.get?
  induction s.users.entries with
  | nil => rfl
  | cons e rest ih =>
    rw [List.map_cons, Ordered.find?, Ordered.find?]
    by_cases h : e.1 = id
    · rw [if_pos h, if_pos h]
      rfl
    · rw [if_neg h, if_neg h]
      exact ih

/-- A change of a user is one of the user's place in a column, if the column can follow it. -/
theorem column_updateUser {f : User → α} {change : User → User} {g : α → α}
    (h : ∀ u, f (change u) = g (f u)) (s : Store) (id : String) :
    (s.updateUser id change).column f
      = (s.column f).map fun e => if e.1 = id then (e.1, g e.2) else e := by
  unfold column
  rw [Store.updateUser, Ordered.modify, List.map_map, List.map_map]
  refine List.map_congr_left fun e _ => ?_
  rw [Function.comp_apply, Function.comp_apply]
  by_cases hid : e.1 = id
  · rw [if_pos hid, if_pos hid, h]
  · rw [if_neg hid, if_neg hid]

/-- A change that does not touch what the column takes leaves the column alone. -/
theorem column_updateUser_eq {f : User → α} {change : User → User} (h : ∀ u, f (change u) = f u)
    (s : Store) (id : String) : (s.updateUser id change).column f = s.column f := by
  rw [column_updateUser (g := fun a => a) h]
  simp only [ite_self]
  exact List.map_id' _

end Store

/-- A column that takes neither the mail address nor the role and the repositories is the same after
every root field. -/
theorem Course.column_eq {α : Type} {f : User → α} (hmail : ∀ u email, f { u with email } = f u)
    (hrole : ∀ u ids role, f (User.promoted ids role u) = f u) {root : RootField} {ctx : Context}
    {field : FieldExpression} {s s' : Store} {r : Except ExecutionError Json}
    (h : Course root ctx field s r s') : s'.column f = s.column f := by
  cases h with
  | refused => rfl
  | answered => rfl
  | mailed caller =>
    cases field.newEmail? with
    | none => rfl
    | some email => exact Store.column_updateUser_eq (fun u => hmail u email) s caller.id
  | promoted caller target =>
    exact Store.column_updateUser_eq (fun u => hrole u s.repoIds _) s target

/-- Repositories never change. -/
theorem Course.repos_eq {root : RootField} {ctx : Context} {field : FieldExpression} {s s' : Store}
    {r : Except ExecutionError Json} (h : Course root ctx field s r s') : s'.repos = s.repos := by
  cases h with
  | refused => rfl
  | answered => rfl
  | mailed caller => cases field.newEmail? <;> rfl
  | promoted => rfl

theorem Store.column_tryExecute {α : Type} {f : User → α}
    (hmail : ∀ u email, f { u with email } = f u)
    (hrole : ∀ u ids role, f (User.promoted ids role u) = f u) (policy : Policy) (s : Store)
    (request : Request) (caller : Option Caller) :
    (tryExecute policy s request caller).store.column f = s.column f := by
  refine tryExecute_of_course (P := fun s' => s'.column f = s.column f) ?_ rfl request
  intro root field s₁ s₂ r hcourse hs₁
  rw [hcourse.column_eq hmail hrole, hs₁]

theorem Store.repos_tryExecute (policy : Policy) (s : Store) (request : Request)
    (caller : Option Caller) : (tryExecute policy s request caller).store.repos = s.repos := by
  refine tryExecute_of_course (P := fun s' => s'.repos = s.repos) ?_ rfl request
  intro root field s₁ s₂ r hcourse hs₁
  rw [hcourse.repos_eq, hs₁]

/-! ## Two runs side by side -/

section

variable {α : Type} {R : Store → Store → Prop}

/-- On two stores the run ends with the same result, and the stores that it leaves are related. -/
def Run.Agrees (R : Store → Store → Prop) (m : Run α) (s t : Store) : Prop :=
  m.result s = m.result t ∧ R (m.after s) (m.after t)

theorem Run.Ends.agrees {m : Run α} {s s' t t' : Store} {r r' : Except ExecutionError α}
    (hs : m.Ends s r s') (ht : m.Ends t r' t') (hr : r = r') (hR : R s' t') : m.Agrees R s t := by
  unfold Run.Agrees
  rw [hs.result_eq, ht.result_eq, hs.after_eq, ht.after_eq]
  exact ⟨hr, hR⟩

/-- If every call agrees on related stores then so does a batch of calls. -/
theorem perform_agrees {ctx : Context} {calls : List Call}
    (hstep : ∀ c ∈ calls, ∀ s t, R s t → (c.resolve ctx).Agrees R s t) {s t : Store} (h : R s t) :
    (perform ctx calls s).1 = (perform ctx calls t).1 ∧
      R (perform ctx calls s).2 (perform ctx calls t).2 := by
  induction calls generalizing s t with
  | nil => exact ⟨rfl, h⟩
  | cons c rest ih =>
    obtain ⟨hresult, hafter⟩ := hstep c List.mem_cons_self s t h
    cases hs : (c.resolve ctx).result s with
    | error e =>
      rw [perform_cons_error hs, perform_cons_error (hresult ▸ hs)]
      exact ⟨rfl, hafter⟩
    | ok v =>
      rw [perform_cons_ok hs, perform_cons_ok (hresult ▸ hs)]
      obtain ⟨hrest, hlast⟩ := ih (fun c' hc' => hstep c' (List.mem_cons_of_mem c hc')) hafter
      exact ⟨congrArg (Except.map _) hrest, hlast⟩

/-- **If every call agrees on related stores then so does every request.** -/
theorem tryExecute_agrees {policy : Policy} {caller : Option Caller}
    (hstep : ∀ (c : Call) s t, R s t → (c.resolve ⟨policy, caller⟩).Agrees R s t) {s t : Store}
    (h : R s t) (request : Request) :
    (tryExecute policy s request caller).result = (tryExecute policy t request caller).result ∧
      R (tryExecute policy s request caller).store (tryExecute policy t request caller).store := by
  rw [tryExecute_result, tryExecute_result, tryExecute_store, tryExecute_store, Request.outcome,
    Request.outcome]
  cases request.document with
  | error e => exact ⟨rfl, h⟩
  | ok doc =>
    obtain ⟨hresult, hstore⟩ := perform_agrees (fun c (_ : c ∈ doc.calls) => hstep c) h
    simp only [Document.outcome]
    cases doc.kind with
    | introspection => exact ⟨rfl, h⟩
    | query | mutation => exact ⟨congrArg (Except.map _) hresult, hstore⟩

end

/-! ## Stores that are alike -/

/-- The user with the password blotted out. -/
def User.masked (u : User) : User := { u with password := "" }

/-- Two stores of which a request sees the same. -/
structure Store.Alike (ctx : Context) (s t : Store) : Prop where
  /-- the users are the same but for their passwords -/
  users : s.column User.masked = t.column User.masked
  /-- so are the records of the caller's repositories -/
  owned : ∀ caller, ctx.caller = some caller →
    caller.repos.filterMap s.repo? = caller.repos.filterMap t.repo?
  /-- and what the caller is shown of a repository that is asked for by its id -/
  shown : ∀ caller, ctx.caller = some caller → ∀ id sub,
    s.shownRepo (ctx.policy.canReadRepo caller) id sub
      = t.shownRepo (ctx.policy.canReadRepo caller) id sub
  /-- and the repositories that a promotion brings, for a caller who may promote -/
  granted : ∀ caller, ctx.caller = some caller →
    ∀ role, ctx.policy.canPromote caller role = true → s.repoIds = t.repoIds

namespace Store

variable {s t : Store}

/-- What does not depend on the password is the same of a user in both stores. -/
theorem user?_map_congr (h : s.column User.masked = t.column User.masked) {α : Type}
    {f : User → α} (hf : ∀ u, f u.masked = f u) (id : String) :
    (s.user? id).map f = (t.user? id).map f := by
  have hmap (o : Option User) : o.map f = (o.map User.masked).map f := by
    rw [Option.map_map]
    exact congrArg (Option.map · o) (funext fun u => (hf u).symm)
  rw [hmap, hmap (t.user? id), ← find?_column, ← find?_column, h]

/-- A user who is not known to one store is not known to the other. -/
theorem bind_user?_eq_none (h : s.column User.masked = t.column User.masked) {id : Option String}
    (hs : id.bind s.user? = none) : id.bind t.user? = none := by
  cases id with
  | none => rfl
  | some id =>
    rw [Option.bind_some] at hs ⊢
    have hmap := user?_map_congr h (f := User.masked) (fun _ => rfl) id
    rw [hs, Option.map_none, eq_comm, Option.map_eq_none_iff] at hmap
    exact hmap

/-- A user who is known to one store is known to the other, maybe with another password. -/
theorem exists_user_of_masked (h : s.column User.masked = t.column User.masked) {id : String}
    {u : User} (hu : s.user? id = some u) : ∃ v, t.user? id = some v ∧ v.masked = u.masked := by
  have hmap := user?_map_congr h (f := User.masked) (fun _ => rfl) id
  rw [hu, Option.map_some, eq_comm, Option.map_eq_some_iff] at hmap
  exact hmap

/-- What is shown of a user does not depend on the passwords. -/
theorem shown_congr (h : s.column User.masked = t.column User.masked)
    {view : User → Entity UserField} (hview : ∀ u, view u.masked = view u) (id : Option String)
    (sub : Option Text) : s.shown view id sub = t.shown view id sub := by
  have hshown (s : Store) : s.shown view id sub
      = ((id.bind s.user?).map fun u => (view u).project sub).getD .null := by
    unfold shown
    cases id.bind s.user? <;> rfl
  rw [hshown, hshown]
  cases id with
  | none => rfl
  | some id =>
    have hproject (u : User) : (view u.masked).project sub = (view u).project sub := by
      rw [hview]
    rw [Option.bind_some, Option.bind_some, user?_map_congr h hproject]

namespace Alike

variable {ctx : Context}

/-- A change of a user that goes by more than the password is the same in both stores. -/
theorem updateUser (h : Alike ctx s t) (id : String) {change : User → User}
    (hchange : ∀ u, (change u).masked = change u.masked) :
    Alike ctx (s.updateUser id change) (t.updateUser id change) where
  users := by rw [column_updateUser hchange, column_updateUser hchange, h.users]
  owned := h.owned
  shown := h.shown
  granted := h.granted

theorem mailed (h : Alike ctx s t) (id : String) (email : Option String) :
    Alike ctx (s.mailed id email) (t.mailed id email) := by
  cases email with
  | none => exact h
  | some email => exact h.updateUser id fun u => rfl

end Alike

end Store

theorem User.masked_promoted (repoIds : List String) (role : Option String) (u : User) :
    (u.promoted repoIds role).masked = u.masked.promoted repoIds role := by
  unfold User.promoted
  split <;> rfl

/-- A promotion comes to the same on stores that are alike. -/
theorem Store.Alike.resolvePromoteUser {policy : Policy} {caller : Caller} {s t : Store}
    (h : Alike ⟨policy, some caller⟩ s t) (field : FieldExpression) :
    (resolvePromoteUser ⟨policy, some caller⟩ field).Agrees (Alike ⟨policy, some caller⟩) s t := by
  by_cases hmay : policy.canPromote caller (field.argument? "role") = true
  · have hids : s.repoIds = t.repoIds := h.granted caller rfl _ hmay
    cases hs : (field.argument? "userId").bind s.user? with
    | none =>
      exact (resolvePromoteUser_unknown policy caller field s hmay hs).agrees
        (resolvePromoteUser_unknown policy caller field t hmay (bind_user?_eq_none h.users hs)) rfl h
    | some u =>
      obtain ⟨id, hid, hu⟩ := Option.bind_eq_some_iff.mp hs
      obtain ⟨v, hv, hmasked⟩ := exists_user_of_masked h.users hu
      have hpromoted := resolvePromoteUser_promoted policy caller field t hmay hid hv
      rw [← hids] at hpromoted
      refine (resolvePromoteUser_promoted policy caller field s hmay hid hu).agrees hpromoted ?_ ?_
      · -- the two users differ in their passwords at most, which are not shown
        have hentity (w : User) : (w.promoted s.repoIds (field.argument? "role")).entity
            = (w.masked.promoted s.repoIds (field.argument? "role")).entity := by
          rw [← User.masked_promoted]
          rfl
        rw [hentity u, hentity v, hmasked]
      · exact h.updateUser id (User.masked_promoted _ _)
  · have hno := Bool.eq_false_iff.mpr hmay
    exact (resolvePromoteUser_forbidden policy caller field s hno).agrees
      (resolvePromoteUser_forbidden policy caller field t hno) rfl h

/-- **A root field comes to the same on stores that are alike**, and leaves them alike. -/
theorem Store.Alike.resolve {ctx : Context} {s t : Store} (h : Alike ctx s t) (root : RootField)
    (field : FieldExpression) : (root.resolve ctx field).Agrees (Alike ctx) s t := by
  obtain ⟨policy, caller⟩ := ctx
  cases caller with
  | none =>
    by_cases hroot : root.requiresCaller = true
    · exact (resolve_anonymous policy field s root hroot).agrees
        (resolve_anonymous policy field t root hroot) rfl h
    · cases root with
      | me => exact (resolveMe_ends field s _).agrees (resolveMe_ends field t _) rfl h
      | user | repos | repo | updateProfile | promoteUser => exact absurd rfl hroot
  | some caller =>
    cases root with
    | me =>
      exact (resolveMe_ends field s _).agrees (resolveMe_ends field t _)
        (congrArg _ (shown_congr h.users (fun _ => rfl) _ _)) h
    | user =>
      exact (resolveUser_ends policy caller field s).agrees (resolveUser_ends policy caller field t)
        (congrArg _ (shown_congr h.users (fun _ => rfl) _ _)) h
    | repos =>
      refine (resolveRepos_ends policy caller field s).agrees
        (resolveRepos_ends policy caller field t) ?_ h
      rw [h.owned caller rfl]
    | repo =>
      exact (resolveRepo_ends policy caller field s).agrees (resolveRepo_ends policy caller field t)
        (congrArg _ (h.shown caller rfl _ _)) h
    | updateProfile =>
      have hmailed := h.mailed caller.id field.newEmail?
      exact (resolveUpdateProfile_ends policy caller field s).agrees
        (resolveUpdateProfile_ends policy caller field t)
        (congrArg _ (shown_congr hmailed.users (fun _ => rfl) _ _)) hmailed
    | promoteUser => exact h.resolvePromoteUser field

/-- **A request comes to the same on stores that are alike**, and leaves them alike. -/
theorem Store.Alike.tryExecute {policy : Policy} {caller : Option Caller} {s t : Store}
    (h : Alike ⟨policy, caller⟩ s t) (request : Request) :
    (tryExecute policy s request caller).result = (tryExecute policy t request caller).result ∧
      Alike ⟨policy, caller⟩ (tryExecute policy s request caller).store
        (tryExecute policy t request caller).store :=
  tryExecute_agrees (fun c _ _ h => h.resolve c.root c.field) h request

end ForgeQuery
