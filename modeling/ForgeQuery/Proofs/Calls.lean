import ForgeQuery.Execution.Executor
import ForgeQuery.Proofs.OrderedLaws
import ForgeQuery.Proofs.Resolving
import ForgeQuery.Proofs.Results

/-!
# Executing a list of calls

Of the units of a document only those count that name a root field of the operation: its *calls*.
Performing calls on a store means to resolve one after the other, each on the store that the one
before it left, up to the first error (`perform`). Executing a document is performing its calls
and inserting their values in order (`runUnits_ends`, `tryExecute_eq`).
-/

namespace ForgeQuery

/-! ## Calls -/

/-- A unit that names a root field of the operation. -/
structure Call where
  /-- the root field that is named -/
  root : RootField
  /-- the unit -/
  field : FieldExpression
  deriving DecidableEq

namespace Call

/-- The call that a unit of an operation is, if it is one. -/
def ofUnit? (kind : OperationKind) (unit : Text) : Option Call := do
  let field ← FieldExpression.parse? unit
  let root ← RootField.ofName? kind field.name
  some ⟨root, field⟩

/-- Resolve a call. -/
def resolve (ctx : Context) (c : Call) : Run Json := c.root.resolve ctx c.field

end Call

/-- The calls of a document, in order. -/
def Document.calls (doc : Document) : List Call :=
  (splitSelections doc.body).filterMap (Call.ofUnit? doc.kind)

/-- A call is one of its operation, and the name in its unit is that of its root field. -/
theorem Call.of_ofUnit? {kind : OperationKind} {unit : Text} {c : Call}
    (h : Call.ofUnit? kind unit = some c) : c.root.kind = kind ∧ c.field.name = c.root.name := by
  obtain ⟨field, -, h⟩ := Option.bind_eq_some_iff.mp h
  obtain ⟨root, hroot, h⟩ := Option.bind_eq_some_iff.mp h
  obtain rfl := Option.some.inj h
  have hfound := List.find?_some hroot
  rw [Bool.and_eq_true, beq_iff_eq, beq_iff_eq] at hfound
  exact ⟨hfound.1, hfound.2.symm⟩

/-- A call takes one of the courses of its root field. -/
theorem Call.course (c : Call) (ctx : Context) (s : Store) :
    Course c.root ctx c.field s ((c.resolve ctx).result s) ((c.resolve ctx).after s) :=
  course_resolve c.field s c.root ctx

/-- A document has no calls of the other kind. -/
theorem Document.kind_of_mem_calls {doc : Document} {c : Call} (h : c ∈ doc.calls) :
    c.root.kind = doc.kind := by
  obtain ⟨unit, -, hc⟩ := List.mem_filterMap.mp h
  exact (Call.of_ofUnit? hc).1

/-- Perform calls one after the other, up to the first error: the values under the names of their
root fields, and the store afterwards. -/
def perform (ctx : Context) : List Call → Store →
    Except ExecutionError (List (String × Json)) × Store
  | [], s => (.ok [], s)
  | c :: rest, s =>
    match (c.resolve ctx).result s with
    | .error e => (.error e, (c.resolve ctx).after s)
    | .ok v =>
      let (r, s') := perform ctx rest ((c.resolve ctx).after s)
      (r.map ((c.root.name, v) :: ·), s')

theorem perform_nil (ctx : Context) (s : Store) : perform ctx [] s = (.ok [], s) := rfl

/-- An error is the last thing that happens. -/
theorem perform_cons_error {ctx : Context} {c : Call} {s : Store} {e : ExecutionError}
    (h : (c.resolve ctx).result s = .error e) (rest : List Call) :
    perform ctx (c :: rest) s = (.error e, (c.resolve ctx).after s) := by
  rw [perform, h]

/-- Behind a value the other calls go on. -/
theorem perform_cons_ok {ctx : Context} {c : Call} {s : Store} {v : Json}
    (h : (c.resolve ctx).result s = .ok v) (rest : List Call) :
    perform ctx (c :: rest) s
      = ((perform ctx rest ((c.resolve ctx).after s)).1.map ((c.root.name, v) :: ·),
          (perform ctx rest ((c.resolve ctx).after s)).2) := by
  rw [perform, h]

/-- Calls that come to values start with one that does. -/
theorem perform_cons_eq_ok {ctx : Context} {c : Call} {rest : List Call} {s : Store}
    {values : List (String × Json)} (h : (perform ctx (c :: rest) s).1 = .ok values) :
    ∃ v others, (c.resolve ctx).result s = .ok v ∧
      (perform ctx rest ((c.resolve ctx).after s)).1 = .ok others ∧
      values = (c.root.name, v) :: others := by
  cases hc : (c.resolve ctx).result s with
  | error e =>
    rw [perform_cons_error hc] at h
    cases h
  | ok v =>
    rw [perform_cons_ok hc] at h
    obtain ⟨others, hothers, rfl⟩ := map_eq_ok_iff.mp h
    exact ⟨v, others, rfl, hothers, rfl⟩

/-- An error in the first of two batches is the end. -/
theorem perform_append_error {ctx : Context} {a : List Call} {s : Store} {e : ExecutionError}
    (h : (perform ctx a s).1 = .error e) (b : List Call) :
    perform ctx (a ++ b) s = (.error e, (perform ctx a s).2) := by
  induction a generalizing s with
  | nil => cases h
  | cons c a ih =>
    rw [List.cons_append]
    cases hc : (c.resolve ctx).result s with
    | error e' =>
      rw [perform_cons_error hc] at h ⊢
      rw [perform_cons_error hc]
      exact Prod.ext h rfl
    | ok v =>
      rw [perform_cons_ok hc] at h ⊢
      rw [perform_cons_ok hc, ih (map_eq_error_iff.mp h)]
      rfl

/-- Behind a first batch of calls the second one is performed on the store that it leaves. -/
theorem perform_append_ok {ctx : Context} {a : List Call} {s : Store}
    {values : List (String × Json)} (h : (perform ctx a s).1 = .ok values) (b : List Call) :
    perform ctx (a ++ b) s
      = ((perform ctx b (perform ctx a s).2).1.map (values ++ ·),
          (perform ctx b (perform ctx a s).2).2) := by
  induction a generalizing s values with
  | nil =>
    -- nothing is put in front of the values of the second batch
    obtain rfl := Except.ok.inj h
    refine Prod.ext ?_ rfl
    rw [List.nil_append, perform_nil]
    cases (perform ctx b s).1 <;> rfl
  | cons c a ih =>
    rw [List.cons_append]
    cases hc : (c.resolve ctx).result s with
    | error e =>
      rw [perform_cons_error hc] at h
      cases h
    | ok v =>
      rw [perform_cons_ok hc] at h ⊢
      obtain ⟨rest, hrest, rfl⟩ := map_eq_ok_iff.mp h
      rw [perform_cons_ok hc, ih hrest]
      refine Prod.ext ?_ rfl
      cases (perform ctx b (perform ctx a ((c.resolve ctx).after s)).2).1 <;> rfl

/-- Two batches that come to values in turn come to values each. -/
theorem perform_append_eq_ok {ctx : Context} {a b : List Call} {s : Store}
    {values : List (String × Json)} (h : (perform ctx (a ++ b) s).1 = .ok values) :
    ∃ first second, (perform ctx a s).1 = .ok first ∧
      (perform ctx b (perform ctx a s).2).1 = .ok second ∧ values = first ++ second := by
  cases ha : (perform ctx a s).1 with
  | error e =>
    rw [perform_append_error ha] at h
    cases h
  | ok first =>
    rw [perform_append_ok ha] at h
    obtain ⟨second, hsecond, rfl⟩ := map_eq_ok_iff.mp h
    exact ⟨first, second, rfl, hsecond, rfl⟩

/-- The values of calls stand under the names of their root fields, in order. -/
theorem names_of_perform {ctx : Context} {calls : List Call} {s : Store}
    {values : List (String × Json)} (h : (perform ctx calls s).1 = .ok values) :
    values.map Prod.fst = calls.map fun c => c.root.name := by
  induction calls generalizing s values with
  | nil =>
    obtain rfl := Except.ok.inj h
    rfl
  | cons c rest ih =>
    obtain ⟨v, others, -, hothers, rfl⟩ := perform_cons_eq_ok h
    rw [List.map_cons, List.map_cons, ih hothers]

/-- What every call of a batch preserves, the batch preserves, with an error or without. -/
theorem perform_invariant {ctx : Context} {P : Store → Prop} {calls : List Call}
    (hstep : ∀ c ∈ calls, ∀ s, P s → P ((c.resolve ctx).after s)) {s : Store} (h : P s) :
    P (perform ctx calls s).2 := by
  induction calls generalizing s with
  | nil => exact h
  | cons c rest ih =>
    have hc : P ((c.resolve ctx).after s) := hstep c List.mem_cons_self s h
    cases hr : (c.resolve ctx).result s with
    | error e =>
      rw [perform_cons_error hr]
      exact hc
    | ok v =>
      rw [perform_cons_ok hr]
      exact ih (fun c' hc' => hstep c' (List.mem_cons_of_mem c hc')) hc

/-- Every value comes from one of the calls, on some store on the way. -/
theorem exists_call_of_mem_values {ctx : Context} {calls : List Call} {s : Store}
    {values : List (String × Json)} (h : (perform ctx calls s).1 = .ok values)
    {e : String × Json} (he : e ∈ values) :
    ∃ c ∈ calls, ∃ s', e.1 = c.root.name ∧ (c.resolve ctx).result s' = .ok e.2 := by
  induction calls generalizing s values with
  | nil =>
    obtain rfl := Except.ok.inj h
    exact absurd he List.not_mem_nil
  | cons c rest ih =>
    obtain ⟨v, others, hv, hothers, rfl⟩ := perform_cons_eq_ok h
    rcases List.mem_cons.mp he with rfl | he
    · exact ⟨c, List.mem_cons_self, s, rfl, hv⟩
    · obtain ⟨c', hc', hcall⟩ := ih hothers he
      exact ⟨c', List.mem_cons_of_mem c hc', hcall⟩

/-! ## Units -/

/-- A unit that is no call is passed over. -/
theorem step_of_none {kind : OperationKind} {unit : Text} (h : Call.ofUnit? kind unit = none)
    (ctx : Context) (data : Object) (s : Store) :
    (step kind ctx data unit).Ends s (.ok data) s := by
  unfold step
  unfold Call.ofUnit? at h
  cases hf : FieldExpression.parse? unit with
  | none => exact (Run.Ends.report _ s).bind (Run.Ends.pure data s)
  | some field =>
    rw [hf, Option.bind_eq_bind, Option.bind_some] at h
    cases hr : RootField.ofName? kind field.name with
    | none =>
      simp only [hr]
      exact (Run.Ends.report _ s).bind (Run.Ends.pure data s)
    | some root =>
      rw [hr] at h
      cases h

/-- A unit that is a call is resolved, and its value is inserted. -/
theorem step_of_some {kind : OperationKind} {unit : Text} {c : Call}
    (h : Call.ofUnit? kind unit = some c) (ctx : Context) (data : Object) (s : Store) :
    (step kind ctx data unit).Ends s
      (((c.resolve ctx).result s).map (data.insert c.root.name)) ((c.resolve ctx).after s) := by
  obtain ⟨policy, caller⟩ := ctx
  obtain ⟨field, hf, h⟩ := Option.bind_eq_some_iff.mp h
  obtain ⟨root, hr, h⟩ := Option.bind_eq_some_iff.mp h
  obtain rfl := Option.some.inj h
  unfold step
  simp only [hf, hr]
  by_cases hc : (root.requiresCaller && caller.isNone) = true
  · -- the check in front of the resolver fails in the way in which the resolver would
    rw [if_pos hc]
    rw [Bool.and_eq_true, Option.isNone_iff_eq_none] at hc
    obtain ⟨hroot, rfl⟩ := hc
    have hends := resolve_anonymous policy field s root hroot
    rw [Call.resolve, hends.result_eq, hends.after_eq]
    exact (Run.Ends.report _ s).bind (Run.Ends.bind_error (Run.Ends.throw _ s))
  · rw [if_neg hc]
    have hends := resolve_ends field s root ⟨policy, caller⟩
    rw [Call.resolve]
    cases hv : (root.resolve ⟨policy, caller⟩ field).result s with
    | error e =>
      rw [hv] at hends
      exact hends.bind_error
    | ok v =>
      rw [hv] at hends
      exact hends.bind (Run.Ends.pure _ _)

/-- **Units are performed as calls**: what is no call is passed over, and the values are inserted
in order. -/
theorem runUnits_ends (kind : OperationKind) (ctx : Context) (units : List Text) (data : Object)
    (s : Store) :
    (runUnits kind ctx units data).Ends s
      ((perform ctx (units.filterMap (Call.ofUnit? kind)) s).1.map data.insertAll)
      (perform ctx (units.filterMap (Call.ofUnit? kind)) s).2 := by
  induction units generalizing data s with
  | nil => exact Run.Ends.pure data s
  | cons unit units ih =>
    rw [runUnits, List.foldlM_cons]
    cases h : Call.ofUnit? kind unit with
    | none =>
      rw [List.filterMap_cons_none h]
      exact (step_of_none h ctx data s).bind (ih data s)
    | some c =>
      rw [List.filterMap_cons_some h]
      have hstep := step_of_some h ctx data s
      cases hv : (c.resolve ctx).result s with
      | error e =>
        rw [hv] at hstep
        rw [perform_cons_error hv]
        exact hstep.bind_error
      | ok v =>
        rw [hv] at hstep
        rw [perform_cons_ok hv]
        have hrest := hstep.bind (ih (data.insert c.root.name v) ((c.resolve ctx).after s))
        revert hrest
        cases (perform ctx (units.filterMap (Call.ofUnit? kind)) ((c.resolve ctx).after s)).1 <;>
          exact id

/-! ## Requests -/

/-- What a document comes to on a store: its data or an error, and the store afterwards. -/
def Document.outcome (doc : Document) (ctx : Context) (s : Store) :
    Except ExecutionError Object × Store :=
  match doc.kind with
  | .introspection => (.ok Schema.introspection, s)
  | _ => ((perform ctx doc.calls s).1.map Ordered.ofList, (perform ctx doc.calls s).2)

theorem runDocument_ends (doc : Document) (ctx : Context) (s : Store) :
    (runDocument doc ctx).Ends s (doc.outcome ctx s).1 (doc.outcome ctx s).2 := by
  unfold runDocument Document.outcome
  have hunits := runUnits_ends doc.kind ctx (splitSelections doc.body) ∅ s
  cases hk : doc.kind with
  | introspection => exact Run.Ends.pure _ s
  | query | mutation =>
    rw [hk] at hunits
    simp only [Document.calls, hk]
    cases doc.definitions with
    | none => exact hunits
    | some definitions => exact (Run.Ends.report _ s).bind hunits

/-- What a request comes to on a store: the error of its document, or what the document comes to. -/
def Request.outcome (request : Request) (ctx : Context) (s : Store) :
    Except ExecutionError Object × Store :=
  match request.document with
  | .error e => (.error e, s)
  | .ok doc => doc.outcome ctx s

/-- **A request is executed by performing its calls**, which settles the result and the store. -/
theorem tryExecute_eq (policy : Policy) (s : Store) (request : Request) (caller : Option Caller) :
    ((tryExecute policy s request caller).result, (tryExecute policy s request caller).store)
      = request.outcome ⟨policy, caller⟩ s := by
  unfold tryExecute Request.outcome
  cases request.document with
  | error e => rfl
  | ok doc =>
    obtain ⟨reported, h⟩ := runDocument_ends doc ⟨policy, caller⟩ s
    simp only [h]

theorem tryExecute_result (policy : Policy) (s : Store) (request : Request)
    (caller : Option Caller) :
    (tryExecute policy s request caller).result = (request.outcome ⟨policy, caller⟩ s).1 :=
  congrArg Prod.fst (tryExecute_eq policy s request caller)

theorem tryExecute_store (policy : Policy) (s : Store) (request : Request)
    (caller : Option Caller) :
    (tryExecute policy s request caller).store = (request.outcome ⟨policy, caller⟩ s).2 :=
  congrArg Prod.snd (tryExecute_eq policy s request caller)

/-- A query or a mutation is executed by performing its calls and inserting their values. -/
theorem tryExecute_operation {request : Request} {doc : Document}
    (hdoc : request.document = .ok doc) (hkind : doc.kind ≠ .introspection) (policy : Policy)
    (s : Store) (caller : Option Caller) :
    (tryExecute policy s request caller).result
        = (perform ⟨policy, caller⟩ doc.calls s).1.map Ordered.ofList ∧
      (tryExecute policy s request caller).store = (perform ⟨policy, caller⟩ doc.calls s).2 := by
  have hrun : request.outcome ⟨policy, caller⟩ s
      = ((perform ⟨policy, caller⟩ doc.calls s).1.map Ordered.ofList,
          (perform ⟨policy, caller⟩ doc.calls s).2) := by
    simp only [Request.outcome, hdoc]
    unfold Document.outcome
    cases hk : doc.kind with
    | introspection => exact absurd hk hkind
    | query | mutation => rfl
  rw [tryExecute_result, tryExecute_store, hrun]
  exact ⟨rfl, rfl⟩

theorem Document.outcome_invariant {doc : Document} {ctx : Context} {P : Store → Prop}
    (hstep : ∀ c ∈ doc.calls, ∀ s, P s → P ((c.resolve ctx).after s)) {s : Store} (h : P s) :
    P (doc.outcome ctx s).2 := by
  unfold Document.outcome
  cases doc.kind with
  | introspection => exact h
  | query | mutation => exact perform_invariant hstep h

/-- **What every call of its document preserves, a request preserves**, also if it fails midway. -/
theorem tryExecute_invariant {policy : Policy} {request : Request} {caller : Option Caller}
    {P : Store → Prop}
    (hstep : ∀ doc, request.document = .ok doc → ∀ c ∈ doc.calls, ∀ s, P s →
      P ((c.resolve ⟨policy, caller⟩).after s))
    {s : Store} (h : P s) : P (tryExecute policy s request caller).store := by
  rw [tryExecute_store, Request.outcome]
  cases hd : request.document with
  | error e => exact h
  | ok doc => exact Document.outcome_invariant (hstep doc hd) h

/-- What every course of every root field preserves, a request preserves. -/
theorem tryExecute_of_course {policy : Policy} {caller : Option Caller} {P : Store → Prop}
    (hcourse : ∀ {root : RootField} {field : FieldExpression} {s s' : Store}
      {r : Except ExecutionError Json}, Course root ⟨policy, caller⟩ field s r s' → P s → P s')
    {s : Store} (h : P s) (request : Request) : P (tryExecute policy s request caller).store :=
  tryExecute_invariant
    (fun _ _ c _ s₁ hs₁ => hcourse (c.course ⟨policy, caller⟩ s₁) hs₁) h

end ForgeQuery
