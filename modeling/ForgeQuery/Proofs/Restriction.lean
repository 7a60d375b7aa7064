import ForgeQuery.Proofs.DataShape
import ForgeQuery.Proofs.Failure
import ForgeQuery.Proofs.Ownership

/-!
# What the enforced policy takes away

A request that is made under both policies, for the same caller and on the same store, comes to the
same but for two things (`enforced_policy_restricts`):

* A query shows `null` for a repository that is not the caller's.
* A mutation of a caller who is no admin ends with its first promotion. What the units in front of
  it have written stays, and is what they write under the permissive policy as well.

Call by call, only `repo` and `promoteUser` can tell the policies apart. A query does not write, so
that its calls are compared on one store. A mutation that is not refused has no call that tells the
policies apart, and one that is refused has none in front of its first promotion.
-/

namespace ForgeQuery

/-! ## Two contexts side by side -/

/-- On a store the call comes to the same in two contexts. -/
def Call.SameFor (ctx ctx' : Context) (s : Store) (c : Call) : Prop :=
  (c.resolve ctx).result s = (c.resolve ctx').result s ∧
    (c.resolve ctx).after s = (c.resolve ctx').after s

theorem Call.SameFor.of_ends {ctx ctx' : Context} {c : Call} {s s' : Store}
    {r : Except ExecutionError Json} (h : (c.resolve ctx).Ends s r s')
    (h' : (c.resolve ctx').Ends s r s') : c.SameFor ctx ctx' s :=
  ⟨h.result_eq.trans h'.result_eq.symm, h.after_eq.trans h'.after_eq.symm⟩

/-- If every call comes to the same in two contexts, on all stores that have the same repositories,
then so does a batch of calls. -/
theorem perform_congr {ctx ctx' : Context} {calls : List Call} {s : Store}
    (h : ∀ c ∈ calls, ∀ t : Store, t.repos = s.repos → c.SameFor ctx ctx' t) :
    perform ctx calls s = perform ctx' calls s := by
  induction calls generalizing s with
  | nil => rfl
  | cons c rest ih =>
    obtain ⟨hresult, hafter⟩ := h c List.mem_cons_self s rfl
    cases hc : (c.resolve ctx).result s with
    | error e => rw [perform_cons_error hc, perform_cons_error (hresult ▸ hc), hafter]
    | ok v =>
      have hrepos : ((c.resolve ctx).after s).repos = s.repos := (c.course ctx s).repos_eq
      have hrest : perform ctx rest ((c.resolve ctx).after s)
          = perform ctx' rest ((c.resolve ctx).after s) :=
        ih fun c' hc' t ht => h c' (List.mem_cons_of_mem c hc') t (ht.trans hrepos)
      rw [perform_cons_ok hc, perform_cons_ok (hresult ▸ hc), hrest, hafter]

/-- If every call of a request comes to the same under two policies then so does the request. -/
theorem tryExecute_congr {policy policy' : Policy} {s : Store} {request : Request}
    {caller : Option Caller}
    (h : ∀ doc, request.document = .ok doc → ∀ c ∈ doc.calls, ∀ t : Store, t.repos = s.repos →
      c.SameFor ⟨policy, caller⟩ ⟨policy', caller⟩ t) :
    (tryExecute policy s request caller).result = (tryExecute policy' s request caller).result ∧
      (tryExecute policy s request caller).store = (tryExecute policy' s request caller).store := by
  have houtcome : request.outcome ⟨policy, caller⟩ s = request.outcome ⟨policy', caller⟩ s := by
    rw [Request.outcome, Request.outcome]
    cases hdoc : request.document with
    | error e => rfl
    | ok doc => simp only [Document.outcome, perform_congr (h doc hdoc)]
  rw [tryExecute_result, tryExecute_result, tryExecute_store, tryExecute_store, houtcome]
  exact ⟨rfl, rfl⟩

/-! ## Calls under two policies -/

section

variable {policy policy' : Policy} {s : Store} {c : Call}

/-- Without a caller the policy makes no difference. -/
theorem Call.sameFor_of_anonymous : c.SameFor ⟨policy, none⟩ ⟨policy', none⟩ s := by
  obtain ⟨root, field⟩ := c
  by_cases hroot : root.requiresCaller = true
  · exact .of_ends (resolve_anonymous policy field s root hroot)
      (resolve_anonymous policy' field s root hroot)
  · cases root with
    | me =>
      exact .of_ends (resolveMe_ends field s ⟨policy, none⟩)
        (resolveMe_ends field s ⟨policy', none⟩)
    | user | repos | repo | updateProfile | promoteUser => exact absurd rfl hroot

variable {who : Caller}

/-- Only a single repository and a promotion are subject to the policy. -/
theorem Call.sameFor_of_ne (hrepo : c.root ≠ .repo) (hpromotion : c.root ≠ .promoteUser) :
    c.SameFor ⟨policy, some who⟩ ⟨policy', some who⟩ s := by
  obtain ⟨root, field⟩ := c
  cases root with
  | me =>
    exact .of_ends (resolveMe_ends field s ⟨policy, some who⟩)
      (resolveMe_ends field s ⟨policy', some who⟩)
  | user =>
    exact .of_ends (resolveUser_ends policy who field s) (resolveUser_ends policy' who field s)
  | repos =>
    exact .of_ends (resolveRepos_ends policy who field s) (resolveRepos_ends policy' who field s)
  | repo => exact absurd rfl hrepo
  | updateProfile =>
    exact .of_ends (resolveUpdateProfile_ends policy who field s)
      (resolveUpdateProfile_ends policy' who field s)
  | promoteUser => exact absurd rfl hpromotion

/-- An admin may promote under every policy. -/
theorem Policy.canPromote_of_isAdmin (h : who.isAdmin = true) (policy : Policy)
    (role : Option String) : policy.canPromote who role = true := by
  cases policy with
  | permissive => rfl
  | enforced => exact h

/-- A promotion by an admin is the same under every policy. -/
theorem Call.sameFor_of_promotion (hroot : c.root = .promoteUser) (h : who.isAdmin = true) :
    c.SameFor ⟨policy, some who⟩ ⟨policy', some who⟩ s := by
  obtain ⟨root, field⟩ := c
  obtain rfl : root = .promoteUser := hroot
  have hmay (policy : Policy) := Policy.canPromote_of_isAdmin h policy (field.argument? "role")
  cases htarget : (field.argument? "userId").bind s.user? with
  | none =>
    exact .of_ends (resolvePromoteUser_unknown policy who field s (hmay policy) htarget)
      (resolvePromoteUser_unknown policy' who field s (hmay policy') htarget)
  | some user =>
    obtain ⟨id, hid, huser⟩ := Option.bind_eq_some_iff.mp htarget
    exact .of_ends (resolvePromoteUser_promoted policy who field s (hmay policy) hid huser)
      (resolvePromoteUser_promoted policy' who field s (hmay policy') hid huser)

/-- Of an admin's calls only a single repository is subject to the policy. -/
theorem Call.sameFor_of_isAdmin (h : who.isAdmin = true) (hrepo : c.root ≠ .repo) :
    c.SameFor ⟨policy, some who⟩ ⟨policy', some who⟩ s := by
  by_cases hpromotion : c.root = .promoteUser
  · exact sameFor_of_promotion hpromotion h
  · exact sameFor_of_ne hrepo hpromotion

/-- A call of a mutation asks for no repository. -/
theorem Call.ne_repo_of_mutation (h : c.root.kind = .mutation) : c.root ≠ .repo := by
  intro hrepo
  rw [hrepo] at h
  cases h

end

/-! ## A single repository -/

/-- A repository is shown alike under both policies, or it is kept from a caller who does not own it
by the enforced one. -/
theorem Store.ReposAreKeyed.shownRepo_restricted {s : Store} (hs : s.ReposAreKeyed) (who : Caller)
    (id : Option String) (sub : Option Text) :
    s.shownRepo (Policy.enforced.canReadRepo who) id sub
        = s.shownRepo (Policy.permissive.canReadRepo who) id sub ∨
      s.shownRepo (Policy.enforced.canReadRepo who) id sub = .null ∧
        ∃ repo, id = some repo ∧ repo ∈ s.repoIds ∧ repo ∉ who.repos := by
  cases id with
  | none => exact Or.inl rfl
  | some id =>
    cases hrepo : s.repo? id with
    | none =>
      refine Or.inl ?_
      rw [shownRepo, shownRepo, Option.bind_some, hrepo]
    | some r =>
      by_cases howned : id ∈ who.repos
      · have hreadable : Policy.enforced.canReadRepo who r.id = true := by
          rw [hs.id_eq hrepo]
          exact List.contains_iff_mem.mpr howned
        refine Or.inl ?_
        rw [shownRepo, shownRepo, Option.bind_some, hrepo]
        exact (if_pos hreadable).trans (if_pos rfl).symm
      · have hkept : Policy.enforced.canReadRepo who id = false :=
          Bool.eq_false_iff.mpr fun h => howned (List.contains_iff_mem.mp h)
        exact Or.inr ⟨hs.shownRepo_eq_null hkept sub, id, rfl, Ordered.mem_keys_iff.mpr ⟨r, hrepo⟩,
          howned⟩

/-- Whether a call asks for a repository of the store that is not the caller's. -/
def Call.AsksForUnowned (s : Store) (caller : Option Caller) (c : Call) : Prop :=
  c.root = .repo ∧ ∃ who id, caller = some who ∧ c.field.argument? "id" = some id ∧
    id ∈ s.repoIds ∧ id ∉ who.repos

/-- A call for a single repository comes to the same under both policies, or to null under the
enforced one. -/
theorem Call.sameFor_or_asksForUnowned {s : Store} (hs : s.ReposAreKeyed) {who : Caller} {c : Call}
    (hroot : c.root = .repo) :
    c.SameFor ⟨.enforced, some who⟩ ⟨.permissive, some who⟩ s ∨
      c.AsksForUnowned s (some who) ∧
        (c.resolve ⟨.enforced, some who⟩).result s = .ok .null := by
  obtain ⟨root, field⟩ := c
  obtain rfl : root = .repo := hroot
  have hends := resolveRepo_ends .enforced who field s
  rcases hs.shownRepo_restricted who (field.argument? "id") field.subSelection with
    hsame | ⟨hnull, id, hid, hrepo, howned⟩
  · rw [hsame] at hends
    exact Or.inl (.of_ends hends (resolveRepo_ends .permissive who field s))
  · rw [hnull] at hends
    exact Or.inr ⟨⟨rfl, who, id, rfl, hid, hrepo, howned⟩, hends.result_eq⟩

/-! ## Queries -/

/-- A query under the enforced policy, beside the same one under the permissive policy. -/
structure QueryRestricted (s : Store) (caller : Option Caller) (doc : Document)
    (enforced permissive : Except ExecutionError Object) : Prop where
  /-- both fail with the same error, or neither fails -/
  error_iff : ∀ e, enforced = .error e ↔ permissive = .error e
  /-- the same names are in the data, in the same order -/
  keys_eq : ∀ data data', enforced = .ok data → permissive = .ok data' → data.keys = data'.keys
  /-- they have the same values, but that `repo` may be null if the caller does not own the one that
  is asked for last -/
  get?_eq : ∀ data data', enforced = .ok data → permissive = .ok data' → ∀ name,
    data.get? name = data'.get? name ∨
      name = "repo" ∧ data.get? name = some .null ∧
        ∃ l : LastUnit doc.kind (splitSelections doc.body) name, l.call.AsksForUnowned s caller

theorem QueryRestricted.of_eq {s : Store} {caller : Option Caller} {doc : Document}
    {enforced permissive : Except ExecutionError Object} (h : enforced = permissive) :
    QueryRestricted s caller doc enforced permissive := by
  subst h
  refine ⟨fun _ => Iff.rfl, fun data data' h h' => ?_, fun data data' h h' name => ?_⟩
  · rw [Except.ok.inj (h.symm.trans h')]
  · rw [Except.ok.inj (h.symm.trans h')]
    exact Or.inl rfl

/-- What a name has in the data of a query, under both policies. -/
theorem get?_restricted {s : Store} (hs : s.ReposAreKeyed) {who : Caller} {units : List Text}
    {values values' : List (String × Json)}
    (h : (perform ⟨.enforced, some who⟩ (units.filterMap (Call.ofUnit? .query)) s).1 = .ok values)
    (h' : (perform ⟨.permissive, some who⟩ (units.filterMap (Call.ofUnit? .query)) s).1
      = .ok values') (name : String) :
    (Ordered.ofList values).get? name = (Ordered.ofList values').get? name ∨
      name = "repo" ∧ (Ordered.ofList values).get? name = some .null ∧
        ∃ l : LastUnit .query units name, l.call.AsksForUnowned s (some who) := by
  cases hname : (Ordered.ofList values).get? name with
  | none =>
    have hno : name ∉ (Ordered.ofList values').keys := by
      rw [keys_of_perform h', ← keys_of_perform h]
      exact Ordered.find?_eq_none_iff.mp hname
    exact Or.inl (Ordered.find?_eq_none_iff.mpr hno).symm
  | some v =>
    -- both values are those of the last unit, on the store that the query starts on
    obtain ⟨l, hresult⟩ := LastUnit.exists_of_value h hname
    obtain ⟨v', hname', hresult'⟩ := l.value h'
    rw [l.after_before] at hresult hresult'
    rw [hname']
    have heq (hsame : l.call.SameFor ⟨.enforced, some who⟩ ⟨.permissive, some who⟩ s) : v = v' :=
      Except.ok.inj (hresult.symm.trans (hsame.1.trans hresult'))
    by_cases hrepo : l.call.root = .repo
    · rcases Call.sameFor_or_asksForUnowned hs hrepo with hsame | ⟨hask, hnull⟩
      · exact Or.inl (congrArg some (heq hsame))
      · refine Or.inr ⟨?_, congrArg some (Except.ok.inj (hresult.symm.trans hnull)), l, hask⟩
        rw [← l.root_name, hrepo]
        rfl
    · refine Or.inl (congrArg some (heq (Call.sameFor_of_ne hrepo fun hpromotion => ?_)))
      have hkind := (Call.of_ofUnit? l.isCall).1
      rw [hpromotion] at hkind
      cases hkind

/-- A caller's query goes through under every policy, with the values of its calls. -/
theorem exists_values_of_query {request : Request} {doc : Document}
    (hdoc : request.document = .ok doc) (hkind : doc.kind = .query) (policy : Policy) (s : Store)
    (who : Caller) :
    ∃ values, (perform ⟨policy, some who⟩
        ((splitSelections doc.body).filterMap (Call.ofUnit? .query)) s).1 = .ok values ∧
      (tryExecute policy s request (some who)).result = .ok (Ordered.ofList values) := by
  obtain ⟨data, hdata⟩ : ∃ data, (tryExecute policy s request (some who)).result = .ok data :=
    tryExecute_query hdoc hkind rfl
  have hperform := hdata
  rw [(tryExecute_operation hdoc (by rw [hkind]; decide) policy s (some who)).1, Document.calls,
    hkind] at hperform
  obtain ⟨values, hvalues, rfl⟩ := map_eq_ok_iff.mp hperform
  exact ⟨values, hvalues, hdata⟩

/-- A query under the enforced policy comes to what it comes to under the permissive one, with null
in the place of a repository that is not the caller's. -/
theorem tryExecute_queryRestricted {s : Store} (hs : s.ReposAreKeyed) {request : Request}
    {doc : Document} (hdoc : request.document = .ok doc) (hkind : doc.kind ≠ .mutation)
    (caller : Option Caller) :
    QueryRestricted s caller doc (tryExecute .enforced s request caller).result
      (tryExecute .permissive s request caller).result := by
  obtain ⟨kind, docName, definitions, body⟩ := doc
  cases caller with
  | none => exact .of_eq (tryExecute_congr fun _ _ _ _ _ _ => Call.sameFor_of_anonymous).1
  | some who =>
    cases kind with
    | introspection =>
      refine .of_eq ?_
      rw [tryExecute_introspection hdoc rfl, tryExecute_introspection hdoc rfl]
    | mutation => exact absurd rfl hkind
    | query =>
      obtain ⟨values, h, hresult⟩ := exists_values_of_query hdoc rfl .enforced s who
      obtain ⟨values', h', hresult'⟩ := exists_values_of_query hdoc rfl .permissive s who
      rw [hresult, hresult']
      refine ⟨fun e => by simp, ?_, ?_⟩
      · rintro _ _ ⟨⟩ ⟨⟩
        rw [keys_of_perform h, keys_of_perform h']
      · rintro _ _ ⟨⟩ ⟨⟩
        exact get?_restricted hs h h'

/-! ## Mutations -/

/-- The units in front of the first one that calls a root field. -/
def unitsBefore (kind : OperationKind) (root : RootField) (units : List Text) : List Text :=
  units.takeWhile fun unit => (Call.ofUnit? kind unit).all fun c => decide (c.root ≠ root)

section

variable {kind : OperationKind} {root : RootField} {units : List Text}

theorem root_ne_of_unitsBefore {c : Call}
    (h : c ∈ (unitsBefore kind root units).filterMap (Call.ofUnit? kind)) : c.root ≠ root := by
  obtain ⟨unit, hunit, hc⟩ := List.mem_filterMap.mp h
  have hall := List.all_eq_true.mp List.all_takeWhile unit hunit
  rw [hc, Option.all_some] at hall
  exact of_decide_eq_true hall

/-- If the root field is called then its first call follows those of the units in front of it. -/
theorem exists_call_behind_unitsBefore
    (h : ∃ c ∈ units.filterMap (Call.ofUnit? kind), c.root = root) :
    ∃ c behind, c.root = root ∧ units.filterMap (Call.ofUnit? kind)
      = (unitsBefore kind root units).filterMap (Call.ofUnit? kind) ++ c :: behind := by
  induction units with
  | nil =>
    obtain ⟨c, hc, -⟩ := h
    exact absurd hc List.not_mem_nil
  | cons u rest ih =>
    cases hu : Call.ofUnit? kind u with
    | none =>
      rw [List.filterMap_cons_none hu] at h
      obtain ⟨c, behind, hroot, hbehind⟩ := ih h
      refine ⟨c, behind, hroot, ?_⟩
      rw [unitsBefore, List.takeWhile_cons_of_pos (by rw [hu]; rfl), List.filterMap_cons_none hu,
        List.filterMap_cons_none hu]
      exact hbehind
    | some c =>
      by_cases hroot : c.root = root
      · refine ⟨c, rest.filterMap (Call.ofUnit? kind), hroot, ?_⟩
        rw [unitsBefore, List.takeWhile_cons_of_neg (by simp [hu, hroot]),
          List.filterMap_cons_some hu]
        rfl
      · rw [List.filterMap_cons_some hu] at h
        obtain ⟨c', hc', hroot'⟩ := h
        have hrest : c' ∈ rest.filterMap (Call.ofUnit? kind) :=
          (List.mem_cons.mp hc').resolve_left fun heq => hroot (heq ▸ hroot')
        obtain ⟨c₁, behind, hroot₁, hbehind⟩ := ih ⟨c', hrest, hroot'⟩
        refine ⟨c₁, behind, hroot₁, ?_⟩
        rw [unitsBefore, List.takeWhile_cons_of_pos (by simp [hu, hroot]),
          List.filterMap_cons_some hu, List.filterMap_cons_some hu, hbehind]
        rfl

end

/-- A mutation under the enforced policy, beside the same one under the permissive policy. -/
structure MutationRestricted (s : Store) (caller : Option Caller) (doc : Document)
    (enforced permissive : Outcome (Except ExecutionError Object)) : Prop where
  /-- it comes to the same and leaves the same store, unless it is refused -/
  same : (∀ field, enforced.result ≠ .error (.forbidden field)) →
    enforced.result = permissive.result ∧ enforced.store = permissive.store
  /-- only the promotion of a caller who is no admin is refused -/
  refused : ∀ field, enforced.result = .error (.forbidden field) →
    (∃ who, caller = some who ∧ who.isAdmin = false) ∧ ∃ c ∈ doc.calls, c.root = .promoteUser
  /-- then the store is the one that the units in front of the first promotion leave, under either
  policy -/
  refused_store : ∀ field, enforced.result = .error (.forbidden field) → ∀ policy,
    enforced.store = (runUnits .mutation ⟨policy, caller⟩
      (unitsBefore .mutation .promoteUser (splitSelections doc.body)) ∅).after s

/-- In front of the first promotion of a mutation the policy makes no difference. -/
theorem perform_unitsBefore_congr (policy policy' : Policy) (who : Caller) (units : List Text)
    (s : Store) :
    let before := (unitsBefore .mutation .promoteUser units).filterMap (Call.ofUnit? .mutation)
    perform ⟨policy, some who⟩ before s = perform ⟨policy', some who⟩ before s := by
  refine perform_congr fun c hc t _ => ?_
  obtain ⟨unit, -, hunit⟩ := List.mem_filterMap.mp hc
  exact Call.sameFor_of_ne (Call.ne_repo_of_mutation (Call.of_ofUnit? hunit).1)
    (root_ne_of_unitsBefore hc)

/-- Only promotions by callers who are no admins are forbidden. -/
theorem Call.of_forbidden {policy : Policy} {caller : Option Caller} {s : Store} {c : Call}
    {field : String} (h : c.failure? ⟨policy, caller⟩ s = some (.forbidden field)) :
    (∃ who, caller = some who ∧ who.isAdmin = false) ∧ c.root = .promoteUser := by
  unfold failure? anonymousFailure? refusal? at h
  grind [Caller.isAdmin]

/-- Only requests with a promotion, of callers who are no admins, are forbidden. -/
theorem of_tryExecute_forbidden {policy : Policy} {s : Store} {request : Request} {doc : Document}
    (hdoc : request.document = .ok doc) {caller : Option Caller} {field : String}
    (h : (tryExecute policy s request caller).result = .error (.forbidden field)) :
    (∃ who, caller = some who ∧ who.isAdmin = false) ∧ ∃ c ∈ doc.calls, c.root = .promoteUser := by
  by_cases hkind : doc.kind = .introspection
  · rw [tryExecute_introspection hdoc hkind] at h
    cases h
  · rw [tryExecute_eq_error_iff hdoc hkind] at h
    obtain ⟨c, hc, hfailure⟩ := List.exists_of_findSome?_eq_some h
    obtain ⟨hwho, hroot⟩ := Call.of_forbidden hfailure
    exact ⟨hwho, c, hc, hroot⟩

/-- Without an admin a batch of calls ends with its first promotion. -/
theorem perform_refused {who : Caller} (hwho : who.isAdmin = false) {before : List Call} {c : Call}
    (hbefore : ∀ c' ∈ before, c'.root ≠ .promoteUser) (hc : c.root = .promoteUser)
    (behind : List Call) (s : Store) :
    perform ⟨.enforced, some who⟩ (before ++ c :: behind) s
      = (.error (.forbidden "promoteUser"), (perform ⟨.enforced, some who⟩ before s).2) := by
  have hforbidden (t : Store) :
      (c.resolve ⟨.enforced, some who⟩).result t = .error (.forbidden "promoteUser") := by
    have hno := Policy.canPromote_eq_false_iff.mp (show Policy.enforced.canPromote who none = false
      from hwho)
    rw [Call.resolve_eq_error_iff]
    exact (if_pos hc).trans (if_pos hno)
  cases h : (perform ⟨.enforced, some who⟩ before s).1 with
  | error e =>
    -- nothing but a promotion fails
    obtain ⟨c', hc', hfailure⟩ := List.exists_of_findSome?_eq_some (perform_eq_error_iff.mp h)
    simp only [Call.failure?, Call.refusal?, if_neg (hbefore c' hc')] at hfailure
    cases hfailure
  | ok values =>
    rw [perform_append_ok h, perform_cons_error (hforbidden _), Call.after_of_error (hforbidden _)]
    rfl

section

variable {s : Store} {request : Request} {doc : Document} (hdoc : request.document = .ok doc)
  (hkind : doc.kind = .mutation)

include hdoc hkind

/-- A mutation with a promotion is refused to a caller who is no admin. -/
theorem tryExecute_refused {who : Caller} (hwho : who.isAdmin = false)
    (h : ∃ c ∈ doc.calls, c.root = .promoteUser) :
    (tryExecute .enforced s request (some who)).result = .error (.forbidden "promoteUser") ∧
      ∀ policy, (tryExecute .enforced s request (some who)).store
        = (runUnits .mutation ⟨policy, some who⟩
            (unitsBefore .mutation .promoteUser (splitSelections doc.body)) ∅).after s := by
  rw [Document.calls, hkind] at h
  obtain ⟨c, behind, hc, hsplit⟩ := exists_call_behind_unitsBefore h
  have hrun := tryExecute_operation hdoc (by rw [hkind]; decide) .enforced s (some who)
  rw [Document.calls, hkind, hsplit,
    perform_refused hwho (fun _ => root_ne_of_unitsBefore) hc] at hrun
  refine ⟨hrun.1, fun policy => ?_⟩
  rw [hrun.2, (runUnits_ends ..).after_eq, perform_unitsBefore_congr .enforced policy]

/-- A mutation under the enforced policy comes to what it comes to under the permissive one, unless
it ends with a promotion that is refused. -/
theorem tryExecute_mutationRestricted (caller : Option Caller) :
    MutationRestricted s caller doc (tryExecute .enforced s request caller)
      (tryExecute .permissive s request caller) := by
  refine ⟨fun hno => tryExecute_congr fun doc' hdoc' c hc t _ => ?_,
    fun field => of_tryExecute_forbidden hdoc, fun field h => ?_⟩
  · obtain rfl := Except.ok.inj (hdoc.symm.trans hdoc')
    have hrepo := Call.ne_repo_of_mutation ((Document.kind_of_mem_calls hc).trans hkind)
    cases caller with
    | none => exact Call.sameFor_of_anonymous
    | some who =>
      cases hwho : who.isAdmin with
      | true => exact Call.sameFor_of_isAdmin hwho hrepo
      | false =>
        refine Call.sameFor_of_ne hrepo fun hpromotion => ?_
        exact hno _ (tryExecute_refused hdoc hkind hwho ⟨c, hc, hpromotion⟩).1
  · obtain ⟨⟨who, rfl, hwho⟩, hpromotion⟩ := of_tryExecute_forbidden hdoc h
    exact (tryExecute_refused hdoc hkind hwho hpromotion).2

end

/-! ## The two policies -/

/-- No call of an admin who owns every repository is subject to the policy. -/
theorem Call.sameFor_of_owner {s : Store} (hs : s.ReposAreKeyed) {who : Caller}
    (hadmin : who.isAdmin = true) (hall : s.repoIds ⊆ who.repos) (c : Call) :
    c.SameFor ⟨.enforced, some who⟩ ⟨.permissive, some who⟩ s := by
  by_cases hrepo : c.root = .repo
  · rcases sameFor_or_asksForUnowned hs hrepo with hsame | ⟨⟨-, _, id, ⟨⟩, -, hid, hunowned⟩, -⟩
    · exact hsame
    · exact absurd (hall hid) hunowned
  · exact sameFor_of_isAdmin hadmin hrepo

/-- **The enforced policy restricts the permissive one** and does nothing else. A query comes to the
same but for repositories that are not the caller's, a mutation comes to the same unless it is
refused, and an admin who owns every repository is not restricted at all. The store has to keep its
repositories under their own ids, which a store of records does at all times
(`Store.reposAreKeyed_ofRecords`, `Course.repos_eq`). -/
theorem enforced_policy_restricts {s : Store} (hs : s.ReposAreKeyed) (request : Request)
    (caller : Option Caller) :
    let enforced := tryExecute .enforced s request caller
    let permissive := tryExecute .permissive s request caller
    (∀ doc, request.document = .ok doc →
      (doc.kind ≠ .mutation →
        QueryRestricted s caller doc enforced.result permissive.result) ∧
      (doc.kind = .mutation → MutationRestricted s caller doc enforced permissive)) ∧
    ∀ who, caller = some who → who.isAdmin = true → s.repoIds ⊆ who.repos →
      enforced.result = permissive.result ∧ enforced.store = permissive.store := by
  intro enforced permissive
  refine ⟨fun doc hdoc => ⟨fun hkind => ?_, fun hkind => ?_⟩, ?_⟩
  · exact tryExecute_queryRestricted hs hdoc hkind caller
  · exact tryExecute_mutationRestricted hdoc hkind caller
  · rintro who rfl hadmin hall
    refine tryExecute_congr fun doc _ c _ t ht => ?_
    -- the repositories are the same at every point of the request
    have hkeyed : t.ReposAreKeyed := by
      unfold Store.ReposAreKeyed
      rwa [ht]
    have hids : t.repoIds ⊆ who.repos := by
      rwa [Store.repoIds, ht]
    exact Call.sameFor_of_owner hkeyed hadmin hids c

/-- The enforced policy keeps a vault from a developer and leaves the rest of the query alone. It
refuses the developer's promotion, with the profile update in front of it done. -/
theorem developer_is_restricted :
    let s := Store.ofRecords [⟨"u1", "dev", "pw", "dev@forge", none, []⟩]
      [⟨"r2", "vault", 0, "Rust", true, none⟩]
    let dev : Option Caller := some ⟨"u1", none, []⟩
    let question := Request.ofQuery "\x7b me, repo(id: \"r2\") \x7d"
    let update := "updateProfile(email: \"new@forge\")"
    let promotion := Request.ofQuery ("mutation \x7b" ++ update ++ ", promoteUser \x7d")
    (∃ data data', (tryExecute .enforced s question dev).result = .ok data ∧
      (tryExecute .permissive s question dev).result = .ok data' ∧
      data.keys = data'.keys ∧ data.get? "me" = data'.get? "me" ∧
      data.get? "repo" = some .null ∧ data'.get? "repo" ≠ some .null) ∧
    (tryExecute .enforced s promotion dev).result = .error (.forbidden "promoteUser") ∧
      (tryExecute .enforced s promotion dev).store
        = (runUnits .mutation ⟨.permissive, dev⟩ [update.toList] ∅).after s := by
  intro s dev question update promotion
  have hs : s.ReposAreKeyed := Store.reposAreKeyed_ofRecords _ _
  constructor
  · have hdoc : question.document = .ok ⟨.query, none, none, "me, repo(id: \"r2\")".toList⟩ := by
      decide +kernel
    have hrestricted := ((enforced_policy_restricts hs question dev).1 _ hdoc).1 (by decide)
    obtain ⟨data, hdata⟩ : ∃ data, (tryExecute .enforced s question dev).result = .ok data :=
      tryExecute_query hdoc rfl rfl
    obtain ⟨data', hdata'⟩ : ∃ data', (tryExecute .permissive s question dev).result = .ok data' :=
      tryExecute_query hdoc rfl rfl
    have hnull : ((tryExecute .enforced s question dev).result.toOption.bind
        fun data => data.get? "repo").map Json.compact = some "null" := by
      decide +kernel
    have hshown : ((tryExecute .permissive s question dev).result.toOption.bind
        fun data => data.get? "repo").map Json.compact ≠ some "null" := by
      decide +kernel
    rw [hdata] at hnull
    rw [hdata'] at hshown
    have hne : data.get? "repo" ≠ data'.get? "repo" := by
      intro heq
      exact hshown ((congrArg (Option.map Json.compact) heq).symm.trans hnull)
    obtain ⟨-, hrepo, -⟩ := (hrestricted.get?_eq data data' hdata hdata' "repo").resolve_left hne
    have hme := (hrestricted.get?_eq data data' hdata hdata' "me").resolve_right
      fun h => absurd h.1 (by decide)
    exact ⟨data, data', hdata, hdata', hrestricted.keys_eq data data' hdata hdata', hme, hrepo,
      hrepo ▸ hne.symm⟩
  · have hdoc : promotion.document
        = .ok ⟨.mutation, none, none, (update ++ ", promoteUser").toList⟩ := by
      decide +kernel
    have hrestricted := ((enforced_policy_restricts hs promotion dev).1 _ hdoc).2 rfl
    have hresult : (tryExecute .enforced s promotion dev).result
        = .error (.forbidden "promoteUser") :=
      (tryExecute_eq_error_iff hdoc (by decide)).mpr (by decide +kernel)
    have hbefore : unitsBefore .mutation .promoteUser
        (splitSelections (update ++ ", promoteUser").toList) = [update.toList] := by
      decide +kernel
    refine ⟨hresult, ?_⟩
    rw [hrestricted.refused_store _ hresult .permissive, hbefore]

end ForgeQuery
