import ForgeQuery.Proofs.Replay

/-!
# Mutations that can be made in either order

Two mutations do not get in each other's way if one of them changes mail addresses and the other
one roles, if they change the addresses of two different callers, or if they change the roles of
different users (`Independent`). Made one after the other in either order they leave the same store,
and each of them fails in one order exactly if it fails in the other, with the same error
(`independent_mutations_commute`).

All that a call writes is a change of a single user, and which one it is does not depend on the
users (`Call.after_eq`). Two such changes can be made in either order if they are about different
users, or if they are about different fields of the same one. From two calls this carries over to a call and a
batch of calls, and then to two batches: whichever of their calls fail, the same ones fail on both
ways, since failures are settled by the ids of the users.
-/

namespace ForgeQuery

/-! ## Changes of a single user -/

/-- A change of a single user. -/
structure UserChange where
  /-- the id that the user is kept under -/
  id : String
  /-- what becomes of the record -/
  apply : User → User

namespace UserChange

/-- Another mail address. -/
def mail (id email : String) : UserChange := ⟨id, fun user => { user with email }⟩

/-- Another role, and with the privileged one every repository. -/
def promotion (repoIds : List String) (role : Option String) (id : String) : UserChange :=
  ⟨id, User.promoted repoIds role⟩

/-- Whether it makes no difference which of the two changes comes first. -/
def Commutes (a b : UserChange) : Prop :=
  a.id ≠ b.id ∨ ∀ u, b.apply (a.apply u) = a.apply (b.apply u)

theorem Commutes.symm {a b : UserChange} (h : a.Commutes b) : b.Commutes a :=
  h.imp Ne.symm fun heq u => (heq u).symm

/-- An address and a role are different fields, also of the same user. -/
theorem commutes_mail_promotion (id email : String) (repoIds : List String) (role : Option String)
    (target : String) : (mail id email).Commutes (promotion repoIds role target) := by
  refine Or.inr fun u => ?_
  simp only [mail, promotion, User.promoted]
  split <;> rfl

end UserChange

namespace Store

/-- The store after a change, if there is one. -/
def changed (s : Store) : Option UserChange → Store
  | none => s
  | some change => s.updateUser change.id change.apply

theorem repoIds_changed (s : Store) (change : Option UserChange) :
    (s.changed change).repoIds = s.repoIds := by
  cases change <;> rfl

/-- Changing a user who is not known changes nothing. -/
theorem updateUser_of_none {s : Store} {id : String} (h : s.user? id = none)
    (change : User → User) : s.updateUser id change = s :=
  congrArg (Store.mk · s.repos) (Ordered.modify_of_not_mem (Ordered.find?_eq_none_iff.mp h) change)

theorem changed_comm {a b : Option UserChange} (h : ∀ x ∈ a, ∀ y ∈ b, x.Commutes y) (s : Store) :
    (s.changed a).changed b = (s.changed b).changed a := by
  cases a with
  | none => rfl
  | some x =>
    cases b with
    | none => rfl
    | some y =>
      exact congrArg (Store.mk · s.repos) (Ordered.modify_comm s.users (h x rfl y rfl))

end Store

/-! ## Calls as changes -/

namespace Call

/-- The change that a call makes, if it makes one. Of the store nothing is looked at but the ids of
the repositories; a promotion of a user who is not known is a change that changes nothing. -/
def change? (ctx : Context) (repoIds : List String) (c : Call) : Option UserChange :=
  match c.root, ctx.caller with
  | .updateProfile, some caller => c.field.newEmail?.map (UserChange.mail caller.id)
  | .promoteUser, some caller =>
    if ctx.policy.canPromote caller (c.field.argument? "role") then
      (c.field.argument? "userId").map (UserChange.promotion repoIds (c.field.argument? "role"))
    else none
  | _, _ => none

/-- A promotion makes its change or, if it fails, none. -/
theorem after_promotion (policy : Policy) (caller : Caller) (field : FieldExpression) (s : Store) :
    (resolvePromoteUser ⟨policy, some caller⟩ field).after s
      = s.changed (change? ⟨policy, some caller⟩ s.repoIds ⟨.promoteUser, field⟩) := by
  simp only [change?]
  by_cases hmay : policy.canPromote caller (field.argument? "role") = true
  · rw [if_pos hmay]
    cases htarget : (field.argument? "userId").bind s.user? with
    | none =>
      rw [(resolvePromoteUser_unknown policy caller field s hmay htarget).after_eq]
      cases hid : field.argument? "userId" with
      | none => rfl
      | some id =>
        rw [hid, Option.bind_some] at htarget
        exact (Store.updateUser_of_none htarget _).symm
    | some user =>
      obtain ⟨id, hid, huser⟩ := Option.bind_eq_some_iff.mp htarget
      rw [(resolvePromoteUser_promoted policy caller field s hmay hid huser).after_eq, hid]
      rfl
  · rw [if_neg hmay]
    exact (resolvePromoteUser_forbidden policy caller field s (Bool.eq_false_iff.mpr hmay)).after_eq

/-- **What a call writes is its change**, whatever the store is. -/
theorem after_eq (ctx : Context) (c : Call) (s : Store) :
    (c.resolve ctx).after s = s.changed (c.change? ctx s.repoIds) := by
  obtain ⟨policy, caller⟩ := ctx
  obtain ⟨root, field⟩ := c
  have hunchanged (hno : caller = none ∨ root.kind ≠ .mutation) :
      ((Call.mk root field).resolve ⟨policy, caller⟩).after s = s :=
    ((Call.mk root field).course ⟨policy, caller⟩ s).unchanged hno
  cases caller with
  | none =>
    rw [hunchanged (Or.inl rfl)]
    cases root <;> rfl
  | some caller =>
    cases root with
    | me | user | repos | repo => exact hunchanged (Or.inr (by decide))
    | updateProfile =>
      have hends := resolveUpdateProfile_ends policy caller field s
      rw [Call.resolve, RootField.resolve, hends.after_eq]
      simp only [change?]
      cases field.newEmail? <;> rfl
    | promoteUser => exact after_promotion policy caller field s

/-- A profile update changes the address of its caller. -/
theorem exists_mail_of_mem_change? {ctx : Context} {repoIds : List String} {c : Call}
    (hc : c.root = .updateProfile) {x : UserChange} (hx : x ∈ c.change? ctx repoIds) :
    ∃ caller email, ctx.caller = some caller ∧ x = .mail caller.id email := by
  obtain ⟨root, field⟩ := c
  obtain rfl : root = .updateProfile := hc
  obtain ⟨policy, caller⟩ := ctx
  cases caller with
  | none => cases hx
  | some caller =>
    obtain ⟨email, -, rfl⟩ := Option.map_eq_some_iff.mp hx
    exact ⟨caller, email, rfl, rfl⟩

/-- A promotion changes the role of its target. -/
theorem exists_promotion_of_mem_change? {ctx : Context} {repoIds : List String} {c : Call}
    (hc : c.root = .promoteUser) {x : UserChange} (hx : x ∈ c.change? ctx repoIds) :
    ∃ target role, c.field.argument? "userId" = some target ∧
      x = .promotion repoIds role target := by
  obtain ⟨root, field⟩ := c
  obtain rfl : root = .promoteUser := hc
  obtain ⟨policy, caller⟩ := ctx
  cases caller with
  | none => cases hx
  | some caller =>
    simp only [change?] at hx
    split at hx
    · obtain ⟨target, htarget, rfl⟩ := Option.map_eq_some_iff.mp hx
      exact ⟨target, _, htarget, rfl⟩
    · cases hx

/-! ## Calls that can be made in either order -/

/-- Whether it makes no difference which of two calls, each in its own context, comes first. -/
def Commutes (ctx ctx' : Context) (c c' : Call) : Prop :=
  ∀ repoIds, ∀ x ∈ c.change? ctx repoIds, ∀ y ∈ c'.change? ctx' repoIds, x.Commutes y

variable {ctx ctx' : Context} {c c' : Call}

theorem Commutes.symm (h : c.Commutes ctx ctx' c') : c'.Commutes ctx' ctx c :=
  fun repoIds y hy x hx => (h repoIds x hx y hy).symm

theorem Commutes.after_after (h : c.Commutes ctx ctx' c') (s : Store) :
    (c'.resolve ctx').after ((c.resolve ctx).after s)
      = (c.resolve ctx).after ((c'.resolve ctx').after s) := by
  rw [after_eq ctx', after_eq ctx, after_eq ctx, after_eq ctx', Store.repoIds_changed,
    Store.repoIds_changed, Store.changed_comm (h s.repoIds)]

/-- An update of a profile and a promotion, maybe of the same user. -/
theorem commutes_of_mail_of_promotion (hc : c.root = .updateProfile)
    (hc' : c'.root = .promoteUser) : c.Commutes ctx ctx' c' := by
  intro repoIds x hx y hy
  obtain ⟨caller, email, -, rfl⟩ := exists_mail_of_mem_change? hc hx
  obtain ⟨target, role, -, rfl⟩ := exists_promotion_of_mem_change? hc' hy
  exact UserChange.commutes_mail_promotion ..

/-- Updates of two profiles. -/
theorem commutes_of_mails (hc : c.root = .updateProfile) (hc' : c'.root = .updateProfile)
    (hne : ∀ x y, ctx.caller = some x → ctx'.caller = some y → x.id ≠ y.id) :
    c.Commutes ctx ctx' c' := by
  intro repoIds x hx y hy
  obtain ⟨caller, email, hcaller, rfl⟩ := exists_mail_of_mem_change? hc hx
  obtain ⟨caller', email', hcaller', rfl⟩ := exists_mail_of_mem_change? hc' hy
  exact Or.inl (hne caller caller' hcaller hcaller')

/-- Promotions of two users. -/
theorem commutes_of_promotions (hc : c.root = .promoteUser) (hc' : c'.root = .promoteUser)
    (hne : ∀ id, c.field.argument? "userId" = some id → c'.field.argument? "userId" ≠ some id) :
    c.Commutes ctx ctx' c' := by
  intro repoIds x hx y hy
  obtain ⟨target, role, htarget, rfl⟩ := exists_promotion_of_mem_change? hc hx
  obtain ⟨target', role', htarget', rfl⟩ := exists_promotion_of_mem_change? hc' hy
  refine Or.inl fun heq => hne target htarget ?_
  rw [htarget']
  exact congrArg some heq.symm

end Call

/-! ## Batches -/

theorem keys_perform (ctx : Context) (calls : List Call) (s : Store) :
    (perform ctx calls s).2.users.keys = s.users.keys :=
  perform_invariant (P := fun s' => s'.users.keys = s.users.keys)
    (fun c _ s' hs' => (c.course ctx s').keys_eq.trans hs') rfl

/-- Behind a call that fails nothing is written, and behind any other the batch goes on. -/
theorem perform_cons_store (ctx : Context) (c : Call) (rest : List Call) (s : Store) :
    (perform ctx (c :: rest) s).2
      = if (c.failure? ctx s).isNone then (perform ctx rest ((c.resolve ctx).after s)).2
        else s := by
  cases hc : (c.resolve ctx).result s with
  | error e =>
    rw [perform_cons_error hc, Call.after_of_error hc, Call.resolve_eq_error_iff.mp hc]
    rfl
  | ok v =>
    rw [perform_cons_ok hc, Call.failure?_eq_none hc]
    rfl

section

variable {ctx ctx' : Context}

/-- A call that can be made before or behind each call of a batch can be made before or behind the
batch. -/
theorem perform_after {c : Call} {calls : List Call} (h : ∀ c' ∈ calls, c.Commutes ctx ctx' c')
    (s : Store) :
    (perform ctx' calls ((c.resolve ctx).after s)).2
      = (c.resolve ctx).after (perform ctx' calls s).2 := by
  induction calls generalizing s with
  | nil => rfl
  | cons c' rest ih =>
    obtain ⟨hc', hrest⟩ := List.forall_mem_cons.mp h
    -- the head of the batch fails on both stores or on neither
    have hkeys : ((c.resolve ctx).after s).users.keys = s.users.keys := (c.course ctx s).keys_eq
    rw [perform_cons_store, perform_cons_store, Call.failure?_congr hkeys]
    by_cases hnone : (c'.failure? ctx' s).isNone = true
    · rw [if_pos hnone, if_pos hnone]
      calc (perform ctx' rest ((c'.resolve ctx').after ((c.resolve ctx).after s))).2
          = (perform ctx' rest ((c.resolve ctx).after ((c'.resolve ctx').after s))).2 := by
            rw [hc'.after_after]
        _ = (c.resolve ctx).after (perform ctx' rest ((c'.resolve ctx').after s)).2 := ih hrest _
    · rw [if_neg hnone, if_neg hnone]

/-- **Two batches of which every two calls can be made in either order** can themselves be made in
either order. -/
theorem perform_perform {calls calls' : List Call}
    (h : ∀ c ∈ calls, ∀ c' ∈ calls', c.Commutes ctx ctx' c') (s : Store) :
    (perform ctx' calls' (perform ctx calls s).2).2
      = (perform ctx calls (perform ctx' calls' s).2).2 := by
  induction calls generalizing s with
  | nil => rfl
  | cons c rest ih =>
    obtain ⟨hc, hrest⟩ := List.forall_mem_cons.mp h
    rw [perform_cons_store, perform_cons_store, Call.failure?_congr (keys_perform ctx' calls' s)]
    by_cases hnone : (c.failure? ctx s).isNone = true
    · rw [if_pos hnone, if_pos hnone]
      calc (perform ctx' calls' (perform ctx rest ((c.resolve ctx).after s)).2).2
          = (perform ctx rest (perform ctx' calls' ((c.resolve ctx).after s)).2).2 := ih hrest _
        _ = (perform ctx rest ((c.resolve ctx).after (perform ctx' calls' s).2)).2 := by
            rw [perform_after hc]
    · rw [if_neg hnone, if_neg hnone]

end

/-! ## Requests -/

/-- The store behind a request is the one behind the calls of its document. -/
theorem tryExecute_store_of_document {request : Request} {doc : Document}
    (hdoc : request.document = .ok doc) (policy : Policy) (s : Store) (caller : Option Caller) :
    (tryExecute policy s request caller).store = (perform ⟨policy, caller⟩ doc.calls s).2 := by
  by_cases hkind : doc.kind = .introspection
  · rw [Document.calls_of_introspection hkind, tryExecute_store, Request.outcome, hdoc]
    simp only [Document.outcome, hkind]
    rfl
  · exact (tryExecute_operation hdoc hkind policy s caller).2

/-- No request makes a user known or unknown. -/
theorem keys_tryExecute (policy : Policy) (s : Store) (request : Request)
    (caller : Option Caller) :
    (tryExecute policy s request caller).store.users.keys = s.users.keys := by
  refine tryExecute_of_course (P := fun s' => s'.users.keys = s.users.keys) ?_ rfl request
  intro root field s₁ s₂ r hcourse hs₁
  exact hcourse.keys_eq.trans hs₁

/-- Two documents, each with the caller that it is executed for, that do not get in each other's
way. -/
inductive Independent (a : Document) (callerA : Option Caller) (b : Document)
    (callerB : Option Caller) : Prop
  /-- the first one updates profiles and the second one promotes -/
  | mailAndRole (mail : ∀ c ∈ a.calls, c.root = .updateProfile)
      (role : ∀ c ∈ b.calls, c.root = .promoteUser)
  /-- the first one promotes and the second one updates profiles -/
  | roleAndMail (role : ∀ c ∈ a.calls, c.root = .promoteUser)
      (mail : ∀ c ∈ b.calls, c.root = .updateProfile)
  /-- both update profiles, for callers with different ids -/
  | mails (mail : ∀ c ∈ a.calls, c.root = .updateProfile)
      (mail' : ∀ c ∈ b.calls, c.root = .updateProfile)
      (apart : ∀ x y, callerA = some x → callerB = some y → x.id ≠ y.id)
  /-- both promote, and have no target in common -/
  | roles (role : ∀ c ∈ a.calls, c.root = .promoteUser)
      (role' : ∀ c ∈ b.calls, c.root = .promoteUser)
      (apart : ∀ c ∈ a.calls, ∀ c' ∈ b.calls, ∀ id,
        c.field.argument? "userId" = some id → c'.field.argument? "userId" ≠ some id)

/-- Every two calls of independent documents can be made in either order. -/
theorem Independent.commutes {a b : Document} {callerA callerB : Option Caller}
    (h : Independent a callerA b callerB) (policy : Policy) :
    ∀ c ∈ a.calls, ∀ c' ∈ b.calls, c.Commutes ⟨policy, callerA⟩ ⟨policy, callerB⟩ c' := by
  intro c hc c' hc'
  cases h with
  | mailAndRole mail role => exact Call.commutes_of_mail_of_promotion (mail c hc) (role c' hc')
  | roleAndMail role mail =>
    exact (Call.commutes_of_mail_of_promotion (mail c' hc') (role c hc)).symm
  | mails mail mail' apart => exact Call.commutes_of_mails (mail c hc) (mail' c' hc') apart
  | roles role role' apart =>
    exact Call.commutes_of_promotions (role c hc) (role' c' hc') (apart c hc c' hc')

/-- **Independent mutations commute**, also if they fail midway. On every store and under every
policy the two requests leave the same store in either order, and each of them fails in one order
exactly if it fails in the other, with the same error. -/
theorem independent_mutations_commute (policy : Policy) (s : Store) {A B : Request}
    {callerA callerB : Option Caller} {a b : Document} (hA : A.document = .ok a)
    (hB : B.document = .ok b) (h : Independent a callerA b callerB) :
    let firstA := tryExecute policy s A callerA
    let thenB := tryExecute policy firstA.store B callerB
    let firstB := tryExecute policy s B callerB
    let thenA := tryExecute policy firstB.store A callerA
    thenB.store = thenA.store ∧
      (∀ e, firstA.result = .error e ↔ thenA.result = .error e) ∧
      (∀ e, firstB.result = .error e ↔ thenB.result = .error e) := by
  intro firstA thenB firstB thenA
  refine ⟨?_, fun e => ?_, fun e => ?_⟩
  · calc thenB.store
        = (perform ⟨policy, callerB⟩ b.calls (perform ⟨policy, callerA⟩ a.calls s).2).2 := by
          rw [← tryExecute_store_of_document hA, ← tryExecute_store_of_document hB]
      _ = (perform ⟨policy, callerA⟩ a.calls (perform ⟨policy, callerB⟩ b.calls s).2).2 :=
          perform_perform (h.commutes policy) s
      _ = thenA.store := by
          rw [← tryExecute_store_of_document hB, ← tryExecute_store_of_document hA]
  · exact (tryExecute_error_congr (keys_tryExecute policy s B callerB) policy A callerA e).symm
  · exact (tryExecute_error_congr (keys_tryExecute policy s A callerA) policy B callerB e).symm

/-- A developer changes the mail address while somebody else makes the developer an admin, in a
request that fails behind this. -/
theorem mail_and_promotion_commute :
    let s := Store.ofRecords [⟨"u1", "dev", "pw", "dev@forge", none, []⟩]
      [⟨"r1", "tools", 5, "Rust", true, none⟩]
    let dev : Option Caller := some ⟨"u1", none, []⟩
    let ops : Option Caller := some ⟨"u2", some adminRole, []⟩
    let update := Request.ofQuery "mutation \x7b updateProfile(email: \"new@forge\") \x7d"
    let promotion := Request.ofQuery
      "mutation \x7b promoteUser(userId: \"u1\", role: \"admin\"), promoteUser \x7d"
    let updated := (tryExecute .enforced s update dev).store
    let promoted := (tryExecute .enforced s promotion ops).store
    let both := (tryExecute .enforced updated promotion ops).store
    both.user? "u1" = some ⟨"u1", "dev", "pw", "new@forge", some adminRole, ["r1"]⟩ ∧
      both = (tryExecute .enforced promoted update dev).store ∧
      (tryExecute .enforced updated promotion ops).result = .error (.targetNotFound none) := by
  intro s dev ops update promotion updated promoted both
  let mailing : Document :=
    ⟨.mutation, none, none, "updateProfile(email: \"new@forge\")".toList⟩
  let promoting : Document :=
    ⟨.mutation, none, none, "promoteUser(userId: \"u1\", role: \"admin\"), promoteUser".toList⟩
  have hupdate : update.document = .ok mailing := by decide +kernel
  have hpromotion : promotion.document = .ok promoting := by decide +kernel
  have hindependent : Independent mailing dev promoting ops :=
    .mailAndRole (by decide +kernel) (by decide +kernel)
  obtain ⟨hstore, -, herror⟩ :=
    independent_mutations_commute .enforced s hupdate hpromotion hindependent
  have hfails : (tryExecute .enforced s promotion ops).result = .error (.targetNotFound none) :=
    (tryExecute_eq_error_iff hpromotion (by decide)).mpr (by decide +kernel)
  exact ⟨by decide +kernel, hstore, (herror _).mp hfails⟩

end ForgeQuery
