import ForgeQuery.Proofs.History

/-!
# When requests fail

Whether a request fails, and with what, can be told before anything is executed: from the document,
from the caller and from the ids of the users that the store knows to begin with
(`failure_is_settled_at_the_start`).

* Without a document, and with one that cannot be read, the request fails with this.
* Without a caller the first field but `me` ends the request.
* With a caller only promotions fail: the first one that the policy refuses, or whose target is not
  named or not known, ends the request.

What the calls in front of the failing one write does not matter, since no call makes a user known
or unknown (`Call.failure?_congr`). Everything else that may be wrong with a unit is passed over.
-/

namespace ForgeQuery

/-! ## Failures of calls -/

namespace Call

/-- The failure of a call that nobody asks for. -/
def anonymousFailure? (c : Call) : Option ExecutionError :=
  if c.root = .me then none else some (.unauthenticated c.root.name)

/-- The failure of a call that a caller asks for. -/
def refusal? (policy : Policy) (caller : Caller) (s : Store) (c : Call) : Option ExecutionError :=
  if c.root = .promoteUser then
    if policy = .enforced ∧ caller.role ≠ some adminRole then some (.forbidden "promoteUser")
    else
      match c.field.argument? "userId" with
      | none => some (.targetNotFound none)
      | some id => if (s.user? id).isSome then none else some (.targetNotFound (some id))
  else none

/-- The failure of a call. -/
def failure? (ctx : Context) (s : Store) (c : Call) : Option ExecutionError :=
  match ctx.caller with
  | none => c.anonymousFailure?
  | some caller => c.refusal? ctx.policy caller s

end Call

/-- Who may not promote under a policy. -/
theorem Policy.canPromote_eq_false_iff {policy : Policy} {caller : Caller} {role : Option String} :
    policy.canPromote caller role = false ↔ policy = .enforced ∧ caller.role ≠ some adminRole := by
  cases policy with
  | permissive => simp [canPromote]
  | enforced => simp [canPromote, Caller.isAdmin]

/-- A promotion fails as told. -/
theorem resolvePromoteUser_result_error (policy : Policy) (caller : Caller)
    (field : FieldExpression) (s : Store) (e : ExecutionError) :
    (resolvePromoteUser ⟨policy, some caller⟩ field).result s = .error e
      ↔ Call.refusal? policy caller s ⟨.promoteUser, field⟩ = some e := by
  unfold Call.refusal?
  rw [if_pos rfl]
  by_cases hmay : policy.canPromote caller (field.argument? "role") = false
  · rw [(resolvePromoteUser_forbidden policy caller field s hmay).result_eq,
      if_pos (Policy.canPromote_eq_false_iff.mp hmay)]
    simp [RootField.name]
  · rw [if_neg fun hno => hmay (Policy.canPromote_eq_false_iff.mpr hno)]
    rw [Bool.not_eq_false] at hmay
    cases htarget : (field.argument? "userId").bind s.user? with
    | none =>
      rw [(resolvePromoteUser_unknown policy caller field s hmay htarget).result_eq]
      cases hid : field.argument? "userId" with
      | none => simp
      | some id =>
        rw [hid, Option.bind_some] at htarget
        simp [htarget]
    | some user =>
      obtain ⟨id, hid, huser⟩ := Option.bind_eq_some_iff.mp htarget
      rw [(resolvePromoteUser_promoted policy caller field s hmay hid huser).result_eq]
      simp [hid, huser]

/-- A caller is answered by every other root field. -/
theorem exists_result_of_ne_promoteUser {root : RootField} (hroot : root ≠ .promoteUser)
    (policy : Policy) (caller : Caller) (field : FieldExpression) (s : Store) :
    ∃ v, (root.resolve ⟨policy, some caller⟩ field).result s = .ok v := by
  cases root with
  | me => exact ⟨_, (resolveMe_ends field s _).result_eq⟩
  | user => exact ⟨_, (resolveUser_ends policy caller field s).result_eq⟩
  | repos => exact ⟨_, (resolveRepos_ends policy caller field s).result_eq⟩
  | repo => exact ⟨_, (resolveRepo_ends policy caller field s).result_eq⟩
  | updateProfile => exact ⟨_, (resolveUpdateProfile_ends policy caller field s).result_eq⟩
  | promoteUser => exact absurd rfl hroot

/-- **A call fails as told.** -/
theorem Call.resolve_eq_error_iff {ctx : Context} {c : Call} {s : Store} {e : ExecutionError} :
    (c.resolve ctx).result s = .error e ↔ c.failure? ctx s = some e := by
  obtain ⟨policy, caller⟩ := ctx
  obtain ⟨root, field⟩ := c
  rw [Call.resolve]
  cases caller with
  | none =>
    by_cases hme : root = .me
    · subst hme
      rw [RootField.resolve, (resolveMe_ends field s _).result_eq]
      simp [failure?, anonymousFailure?]
    · have hroot : root.requiresCaller = true := by
        cases root with
        | me => exact absurd rfl hme
        | user | repos | repo | updateProfile | promoteUser => rfl
      rw [(resolve_anonymous policy field s root hroot).result_eq]
      simp [failure?, anonymousFailure?, hme]
  | some caller =>
    by_cases hroot : root = .promoteUser
    · subst hroot
      exact resolvePromoteUser_result_error policy caller field s e
    · obtain ⟨v, hv⟩ := exists_result_of_ne_promoteUser hroot policy caller field s
      rw [hv]
      simp [failure?, refusal?, hroot]

/-- A call that comes to a value has no failure. -/
theorem Call.failure?_eq_none {ctx : Context} {c : Call} {s : Store} {v : Json}
    (h : (c.resolve ctx).result s = .ok v) : c.failure? ctx s = none := by
  rw [Option.eq_none_iff_forall_ne_some]
  intro e he
  rw [resolve_eq_error_iff.mpr he] at h
  cases h

/-! ## Failures of batches of calls -/

/-- No root field makes a user known or unknown. -/
theorem Course.keys_eq {root : RootField} {ctx : Context} {field : FieldExpression} {s s' : Store}
    {r : Except ExecutionError Json} (h : Course root ctx field s r s') :
    s'.users.keys = s.users.keys := by
  cases h with
  | refused => rfl
  | answered => rfl
  | mailed caller =>
    cases field.newEmail? with
    | none => rfl
    | some email => exact Ordered.keys_modify ..
  | promoted => exact Ordered.keys_modify ..

/-- A failure hangs on the store only through the ids of the users. -/
theorem Call.failure?_congr {s s' : Store} (h : s'.users.keys = s.users.keys) (ctx : Context) :
    failure? ctx s' = failure? ctx s := by
  have hknown (id : String) : (s'.user? id).isSome = (s.user? id).isSome := by
    rw [Bool.eq_iff_iff, Option.isSome_iff_exists, Option.isSome_iff_exists]
    have hkeys := Ordered.mem_keys_iff (m := s'.users) (k := id)
    rw [h, Ordered.mem_keys_iff] at hkeys
    exact hkeys.symm
  funext c
  simp only [failure?, refusal?, hknown]

/-- **A batch of calls fails with the failure of the first call that fails**, as it is told before
the batch is performed. -/
theorem perform_eq_error_iff {ctx : Context} {calls : List Call} {s : Store} {e : ExecutionError} :
    (perform ctx calls s).1 = .error e ↔ calls.findSome? (Call.failure? ctx s) = some e := by
  induction calls generalizing s with
  | nil => simp [perform_nil]
  | cons c rest ih =>
    rw [List.findSome?_cons]
    cases hc : (c.resolve ctx).result s with
    | error e' =>
      rw [perform_cons_error hc, Call.resolve_eq_error_iff.mp hc]
      simp
    | ok v =>
      have hkeys : ((c.resolve ctx).after s).users.keys = s.users.keys := (c.course ctx s).keys_eq
      rw [perform_cons_ok hc, map_eq_error_iff, ih, Call.failure?_eq_none hc,
        Call.failure?_congr hkeys]

/-! ## Failures of requests -/

/-- A document is missing or cannot be read, and nothing else is wrong with it. -/
theorem Request.document_eq_error_iff {request : Request} {e : ExecutionError} :
    request.document = .error e
      ↔ e = .documentEmpty ∧ (request.query = none ∨ request.query = some "") ∨
        e = .documentUnparseable ∧
          ∃ text, request.query = some text ∧ text ≠ "" ∧ Document.parse? text.toList = none := by
  unfold Request.document
  cases request.query with
  | none => simp [eq_comm]
  | some text =>
    by_cases htext : text = ""
    · simp [htext, eq_comm]
    · cases hdoc : Document.parse? text.toList <;> simp [htext, hdoc, eq_comm]

theorem Request.document_eq_ok {request : Request} {text : String} {doc : Document}
    (hquery : request.query = some text) (htext : text ≠ "")
    (hdoc : Document.parse? text.toList = some doc) : request.document = .ok doc := by
  unfold Request.document
  simp [hquery, htext, hdoc]

section

variable {policy : Policy} {s : Store} {request : Request} {caller : Option Caller}

/-- A query or a mutation fails as told. -/
theorem tryExecute_eq_error_iff {doc : Document} (hdoc : request.document = .ok doc)
    (hkind : doc.kind ≠ .introspection) {e : ExecutionError} :
    (tryExecute policy s request caller).result = .error e
      ↔ doc.calls.findSome? (Call.failure? ⟨policy, caller⟩ s) = some e := by
  rw [(tryExecute_operation hdoc hkind policy s caller).1, map_eq_error_iff]
  exact perform_eq_error_iff

/-- Introspection never fails, and is the same for everybody. -/
theorem tryExecute_introspection {doc : Document} (hdoc : request.document = .ok doc)
    (hkind : doc.kind = .introspection) :
    (tryExecute policy s request caller).result = .ok Schema.introspection := by
  rw [tryExecute_result, Request.outcome, hdoc]
  simp only [Document.outcome, hkind]

/-- No call fails for the sake of the document. -/
theorem Call.failure?_of_document {ctx : Context} {c : Call} {e : ExecutionError}
    (h : c.failure? ctx s = some e) : e ≠ .documentEmpty ∧ e ≠ .documentUnparseable := by
  unfold failure? anonymousFailure? refusal? at h
  grind

/-- The errors of documents come from documents. -/
theorem tryExecute_eq_documentError_iff {e : ExecutionError}
    (he : e = .documentEmpty ∨ e = .documentUnparseable) :
    (tryExecute policy s request caller).result = .error e ↔ request.document = .error e := by
  cases hdoc : request.document with
  | error e' =>
    rw [tryExecute_result, Request.outcome, hdoc]
    simp
  | ok doc =>
    by_cases hkind : doc.kind = .introspection
    · rw [tryExecute_introspection hdoc hkind]
      simp
    · rw [tryExecute_eq_error_iff hdoc hkind]
      constructor
      · intro h
        obtain ⟨c, -, hc⟩ := List.exists_of_findSome?_eq_some h
        obtain ⟨hempty, hunparseable⟩ := Call.failure?_of_document hc
        exact he.elim (absurd · hempty) (absurd · hunparseable)
      · intro h
        cases h

/-- A caller's query goes through. -/
theorem tryExecute_query {doc : Document} (hdoc : request.document = .ok doc)
    (hkind : doc.kind = .query) {who : Caller} (hcaller : caller = some who) :
    ∃ data, (tryExecute policy s request caller).result = .ok data := by
  cases hresult : (tryExecute policy s request caller).result with
  | ok data => exact ⟨data, rfl⟩
  | error e =>
    rw [tryExecute_eq_error_iff hdoc (by rw [hkind]; decide)] at hresult
    obtain ⟨c, hc, hfailure⟩ := List.exists_of_findSome?_eq_some hresult
    have hroot : c.root ≠ .promoteUser := by
      intro hroot
      have hcall := Document.kind_of_mem_calls hc
      rw [hroot, hkind] at hcall
      cases hcall
    rw [hcaller] at hfailure
    simp [Call.failure?, Call.refusal?, hroot] at hfailure

end

/-- **When a request fails, and with what.** The first two cases are those of the document, which is
missing or cannot be read. Introspection never fails. A query or a mutation without a caller fails
with its first field but `me`, a query with a caller never, and a mutation with a caller with the
first of its promotions that is refused or has no target on the initial store. -/
theorem failure_is_settled_at_the_start (policy : Policy) (s : Store) (request : Request)
    (caller : Option Caller) :
    let result := (tryExecute policy s request caller).result
    (result = .error .documentEmpty ↔ request.query = none ∨ request.query = some "") ∧
    (result = .error .documentUnparseable ↔
      ∃ text, request.query = some text ∧ text ≠ "" ∧ Document.parse? text.toList = none) ∧
    ∀ text doc, request.query = some text → text ≠ "" →
      Document.parse? text.toList = some doc →
      match doc.kind, caller with
      | .introspection, _ => result = .ok Schema.introspection
      | _, none => ∀ e, result = .error e ↔ doc.calls.findSome? Call.anonymousFailure? = some e
      | .query, some _ => ∃ data, result = .ok data
      | .mutation, some who =>
        ∀ e, result = .error e ↔ doc.calls.findSome? (Call.refusal? policy who s) = some e := by
  intro result
  refine ⟨?_, ?_, ?_⟩
  · rw [tryExecute_eq_documentError_iff (Or.inl rfl), Request.document_eq_error_iff]
    simp
  · rw [tryExecute_eq_documentError_iff (Or.inr rfl), Request.document_eq_error_iff]
    simp
  · intro text doc hquery htext hparse
    have hdoc := Request.document_eq_ok hquery htext hparse
    cases hkind : doc.kind with
    | introspection => exact tryExecute_introspection hdoc hkind
    | query =>
      cases caller with
      | none => exact fun e => tryExecute_eq_error_iff hdoc (by rw [hkind]; decide)
      | some who => exact tryExecute_query hdoc hkind rfl
    | mutation =>
      cases caller with
      | none => exact fun e => tryExecute_eq_error_iff hdoc (by rw [hkind]; decide)
      | some who => exact fun e => tryExecute_eq_error_iff hdoc (by rw [hkind]; decide)

/-- A promotion of nobody behind a profile update: a caller is told that there is no such user, or
under the enforced policy that it is not allowed, and nobody is stopped by the profile update. -/
theorem promotion_of_nobody_fails :
    let s := Store.ofRecords [⟨"u1", "dev", "pw", "dev@forge", none, []⟩] []
    let request := Request.ofQuery ("mutation \x7b updateProfile(email: \"new@forge\"), "
      ++ "promoteUser(userId: \"u2\"), promoteUser \x7d")
    let result (policy : Policy) (caller : Option Caller) :=
      (tryExecute policy s request caller).result
    let dev : Caller := ⟨"u1", none, []⟩
    result .permissive (some dev) = .error (.targetNotFound (some "u2")) ∧
      result .enforced (some dev) = .error (.forbidden "promoteUser") ∧
      result .permissive none = .error (.unauthenticated "updateProfile") := by
  intro s request result dev
  let body : Text := ("updateProfile(email: \"new@forge\"), "
    ++ "promoteUser(userId: \"u2\"), promoteUser").toList
  have hparse : Document.parse? ("mutation \x7b updateProfile(email: \"new@forge\"), "
      ++ "promoteUser(userId: \"u2\"), promoteUser \x7d").toList
        = some ⟨.mutation, none, none, body⟩ := by
    decide +kernel
  have htold (policy : Policy) (caller : Option Caller) :=
    (failure_is_settled_at_the_start policy s request caller).2.2 _ _ rfl (by decide) hparse
  refine ⟨(htold .permissive (some dev) _).mpr ?_, (htold .enforced (some dev) _).mpr ?_,
    (htold .permissive none _).mpr ?_⟩
  · decide +kernel
  · decide +kernel
  · decide +kernel

end ForgeQuery
