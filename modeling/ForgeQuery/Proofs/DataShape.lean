import ForgeQuery.Proofs.Cutting
import ForgeQuery.Proofs.Units

/-!
# The data of a document

The names in the data of a query or of a mutation are those of its calls, each once and in the order
in which they first occur. Under a name stands what the last call of this name comes to, on the
store as the units in front of it leave it (`LastUnit`, `last_units_make_the_data`).

A query changes nothing, so that its last unit of a name comes to the same without the others: they
may be unknown or malformed, may be asked for again, may be left out, and what they are makes no
difference to it.
-/

namespace ForgeQuery

/-! ## The last call of a name -/

/-- In the data a name has the value of the last call of its root field, resolved on the store as
the calls in front of it leave it. -/
theorem get?_of_last_call {ctx : Context} {before behind : List Call} {c : Call} {s : Store}
    {values : List (String × Json)} (h : (perform ctx (before ++ c :: behind) s).1 = .ok values)
    (hlast : ∀ c' ∈ behind, c'.root.name ≠ c.root.name) :
    ∃ v, (Ordered.ofList values).get? c.root.name = some v ∧
      (c.resolve ctx).result (perform ctx before s).2 = .ok v := by
  obtain ⟨first, second, -, hsecond, rfl⟩ := perform_append_eq_ok h
  obtain ⟨v, others, hv, hothers, rfl⟩ := perform_cons_eq_ok hsecond
  refine ⟨v, Ordered.get?_ofList_eq_some_iff.mpr ⟨_, _, rfl, ?_⟩, hv⟩
  rw [names_of_perform hothers]
  intro hmem
  obtain ⟨c', hc', hname⟩ := List.mem_map.mp hmem
  exact hlast c' hc' hname

/-! ## The last unit of a name -/

/-- The last of a list of units that calls the root field of a name, and what is around it. -/
structure LastUnit (kind : OperationKind) (units : List Text) (name : String) where
  /-- the units in front of it -/
  before : List Text
  /-- the unit -/
  unit : Text
  /-- the units behind it -/
  behind : List Text
  /-- the call that the unit is -/
  call : Call
  /-- together they are the list -/
  together : units = before ++ unit :: behind
  /-- the unit is a call of this name -/
  isCall : Call.ofUnit? kind unit = some call
  /-- the call is one of this name -/
  named : call.field.name = name
  /-- no later call is -/
  last : ∀ later ∈ behind, ∀ c, Call.ofUnit? kind later = some c → c.field.name ≠ name

namespace LastUnit

variable {kind : OperationKind} {units : List Text} {name : String}

/-- A name that is called has a last unit. -/
theorem exists_of_mem
    (h : name ∈ (units.filterMap (Call.ofUnit? kind)).map fun c => c.field.name) :
    Nonempty (LastUnit kind units name) := by
  induction units with
  | nil => exact absurd h List.not_mem_nil
  | cons u rest ih =>
    by_cases hrest : name ∈ (rest.filterMap (Call.ofUnit? kind)).map fun c => c.field.name
    · obtain ⟨l⟩ := ih hrest
      exact ⟨{ l with before := u :: l.before, together := congrArg (u :: ·) l.together }⟩
    · -- nothing behind the first unit is a call of the name, so that it is the last one
      cases hu : Call.ofUnit? kind u with
      | none =>
        rw [List.filterMap_cons_none hu] at h
        exact absurd h hrest
      | some c =>
        rw [List.filterMap_cons_some hu, List.map_cons, List.mem_cons] at h
        refine ⟨⟨[], u, rest, c, rfl, hu, (h.resolve_right hrest).symm, ?_⟩⟩
        intro later hlater c' hc' hname
        exact hrest (List.mem_map.mpr ⟨c', List.mem_filterMap.mpr ⟨later, hlater, hc'⟩, hname⟩)

/-- The calls of the list are those in front of the last unit, its own and those behind it. -/
theorem calls_eq (l : LastUnit kind units name) :
    units.filterMap (Call.ofUnit? kind) = l.before.filterMap (Call.ofUnit? kind)
      ++ l.call :: l.behind.filterMap (Call.ofUnit? kind) := by
  conv_lhs => rw [l.together]
  rw [List.filterMap_append, List.filterMap_cons_some l.isCall]

theorem root_name (l : LastUnit kind units name) : l.call.root.name = name :=
  (Call.of_ofUnit? l.isCall).2.symm.trans l.named

/-- No call behind the last unit is one of the name. -/
theorem root_name_ne (l : LastUnit kind units name) :
    ∀ c ∈ l.behind.filterMap (Call.ofUnit? kind), c.root.name ≠ l.call.root.name := by
  intro c hc
  obtain ⟨later, hlater, hc⟩ := List.mem_filterMap.mp hc
  rw [l.root_name, ← (Call.of_ofUnit? hc).2]
  exact l.last later hlater c hc

theorem unit_mem (l : LastUnit kind units name) : l.unit ∈ units := by
  have hmem : l.unit ∈ l.before ++ l.unit :: l.behind :=
    List.mem_append_right _ List.mem_cons_self
  rwa [← l.together] at hmem

/-- A last unit has no other last unit behind it. -/
theorem not_mem_behind (l l' : LastUnit kind units name) : l'.unit ∉ l.behind :=
  fun h => l.last l'.unit h l'.call l'.isCall l'.named

theorem length_before_le (l l' : LastUnit kind units name) :
    l'.before.length ≤ l.before.length := by
  have htogether := l.together.symm.trans l'.together
  rcases List.append_eq_append_iff.mp htogether with ⟨x, h₁, h₂⟩ | ⟨x, h₁, -⟩
  · cases x with
    | nil =>
      have hbefore := h₁.trans (List.append_nil _)
      exact Nat.le_of_eq (congrArg List.length hbefore)
    | cons u x =>
      -- the other last unit would be one of those behind this one
      have hmem : l'.unit ∈ l.behind := by
        rw [(List.cons.inj h₂).2]
        exact List.mem_append_right _ List.mem_cons_self
      exact absurd hmem (l.not_mem_behind l')
  · rw [h₁, List.length_append]
    exact Nat.le_add_right _ _

/-- A name has one last unit at most. -/
instance : Subsingleton (LastUnit kind units name) where
  allEq l l' := by
    have hlength := Nat.le_antisymm (l'.length_before_le l) (l.length_before_le l')
    obtain ⟨hbefore, htail⟩ := List.append_inj (l.together.symm.trans l'.together) hlength
    obtain ⟨hunit, hbehind⟩ := List.cons.inj htail
    have hcall : l.call = l'.call := Option.some.inj (l.isCall.symm.trans (hunit ▸ l'.isCall))
    cases l
    cases l'
    cases hbefore
    cases hunit
    cases hbehind
    cases hcall
    rfl

end LastUnit

/-! ## The data -/

/-- A request that has a document is for a text that can be read. -/
theorem Request.exists_parse? {request : Request} {doc : Document}
    (h : request.document = .ok doc) :
    ∃ text, request.query = some text ∧ Document.parse? text.toList = some doc := by
  unfold Request.document at h
  split at h
  · cases h
  · next text hquery =>
    split at h
    · cases h
    · split at h
      · cases h
      · next hparse =>
        obtain rfl := Except.ok.inj h
        exact ⟨text, hquery, hparse⟩

/-- Queries leave the store as it is. -/
theorem perform_queries {ctx : Context} {calls : List Call}
    (h : ∀ c ∈ calls, c.root.kind = .query) (s : Store) : (perform ctx calls s).2 = s := by
  refine perform_invariant (P := fun s' => s' = s) (fun c hc s' hs' => ?_) rfl
  refine ((c.course ctx s').unchanged (Or.inr ?_)).trans hs'
  rw [h c hc]
  decide

/-- The names in the data are those of the calls, in order of first occurrence. -/
theorem keys_of_perform {kind : OperationKind} {units : List Text} {ctx : Context} {s : Store}
    {values : List (String × Json)}
    (h : (perform ctx (units.filterMap (Call.ofUnit? kind)) s).1 = .ok values) :
    (Ordered.ofList values).keys
      = ((units.filterMap (Call.ofUnit? kind)).map fun c => c.field.name).eraseDups := by
  rw [Ordered.keys_ofList, names_of_perform h]
  refine congrArg List.eraseDups (List.map_congr_left fun c hc => ?_)
  obtain ⟨unit, -, hc⟩ := List.mem_filterMap.mp hc
  exact (Call.of_ofUnit? hc).2.symm

namespace LastUnit

variable {kind : OperationKind} {units : List Text} {name : String} {policy : Policy} {s : Store}
  {caller : Option Caller}

/-- Under a name the data holds what the last unit of the name comes to. -/
theorem value (l : LastUnit kind units name) {ctx : Context} {values : List (String × Json)}
    (h : (perform ctx (units.filterMap (Call.ofUnit? kind)) s).1 = .ok values) :
    ∃ v, (Ordered.ofList values).get? name = some v ∧
      (l.call.resolve ctx).result ((runUnits kind ctx l.before ∅).after s) = .ok v := by
  rw [l.calls_eq] at h
  have hvalue := get?_of_last_call h l.root_name_ne
  rwa [l.root_name, ← (runUnits_ends kind ctx l.before ∅ s).after_eq] at hvalue

/-- A name that has a value in the data has a last unit, which comes to this value. -/
theorem exists_of_value {ctx : Context} {values : List (String × Json)}
    (h : (perform ctx (units.filterMap (Call.ofUnit? kind)) s).1 = .ok values) {v : Json}
    (hv : (Ordered.ofList values).get? name = some v) :
    ∃ l : LastUnit kind units name,
      (l.call.resolve ctx).result ((runUnits kind ctx l.before ∅).after s) = .ok v := by
  have hname : name ∈ (units.filterMap (Call.ofUnit? kind)).map fun c => c.field.name := by
    rw [← List.mem_eraseDups, ← keys_of_perform h]
    exact Ordered.mem_keys_iff.mpr ⟨v, hv⟩
  obtain ⟨l⟩ := exists_of_mem hname
  obtain ⟨v', hv', hresult⟩ := l.value h
  obtain rfl : v' = v := Option.some.inj (hv'.symm.trans hv)
  exact ⟨l, hresult⟩

/-- The last unit of a query comes to the same on the store that the query starts on. -/
theorem after_before (l : LastUnit .query units name) (ctx : Context) :
    (runUnits .query ctx l.before ∅).after s = s := by
  rw [(runUnits_ends .query ctx l.before ∅ s).after_eq]
  refine perform_queries (fun c hc => ?_) s
  obtain ⟨unit, -, hc⟩ := List.mem_filterMap.mp hc
  exact (Call.of_ofUnit? hc).1

/-- A query with this unit alone comes to its value alone. -/
theorem tryExecute_alone {doc : Document} (hfree : MarkerFree doc.body)
    (l : LastUnit .query (splitSelections doc.body) name) {v : Json}
    (hv : (l.call.resolve ⟨policy, caller⟩).result s = .ok v) {h : Heading}
    (hkind : h.kind = .query) :
    (tryExecute policy s (h.request l.unit) caller).result = .ok (Ordered.ofList [(name, v)]) := by
  have hunit : MarkerFree l.unit := hfree.of_infix (infix_of_mem_splitSelections l.unit_mem)
  have hcalls : h.calls l.unit = [l.call] := by
    rw [Heading.calls, splitSelections_of_mem l.unit_mem, hkind,
      List.filterMap_cons_some l.isCall, List.filterMap_nil]
  rw [(h.tryExecute_request hunit policy s caller).1, hcalls, perform_cons_ok hv, perform_nil,
    l.root_name]
  rfl

end LastUnit

/-- **The last unit of each name makes the data.** The names in the data are those of the calls, in
order of first occurrence. The value of each is what its last unit comes to on the store that is
left by the units in front of it, and in a query what the unit comes to in a query by itself. -/
theorem last_units_make_the_data {request : Request} {doc : Document}
    (hdoc : request.document = .ok doc) (hkind : doc.kind ≠ .introspection) {policy : Policy}
    {s : Store} {caller : Option Caller} {data : Object}
    (hdata : (tryExecute policy s request caller).result = .ok data) :
    data.keys = (doc.calls.map fun c => c.field.name).eraseDups ∧
      ∀ name v, data.get? name = some v →
        ∃ l : LastUnit doc.kind (splitSelections doc.body) name,
          (l.call.resolve ⟨policy, caller⟩).result
              ((runUnits doc.kind ⟨policy, caller⟩ l.before ∅).after s) = .ok v ∧
            (doc.kind = .query → ∀ h : Heading, h.kind = .query →
              (tryExecute policy s (h.request l.unit) caller).result
                = .ok (Ordered.ofList [(name, v)])) := by
  rw [(tryExecute_operation hdoc hkind policy s caller).1] at hdata
  obtain ⟨values, hvalues, rfl⟩ := map_eq_ok_iff.mp hdata
  refine ⟨keys_of_perform hvalues, fun name v hv => ?_⟩
  obtain ⟨l, hresult⟩ := LastUnit.exists_of_value hvalues hv
  refine ⟨l, hresult, fun hquery h hh => ?_⟩
  obtain ⟨kind, docName, definitions, body⟩ := doc
  obtain rfl : kind = .query := hquery
  rw [l.after_before] at hresult
  obtain ⟨text, -, hparse⟩ := Request.exists_parse? hdoc
  exact l.tryExecute_alone (markerFree_body hparse hkind) hresult hh

/-- A user is asked for twice, around a field that is not known and one that is malformed: the later
user stands at the place of the earlier one, and is the one that a query for it alone shows. -/
theorem user_is_asked_for_twice :
    let s := Store.ofRecords [⟨"u1", "dev", "pw", "dev@forge", none, []⟩,
      ⟨"u2", "ops", "pw", "ops@forge", some adminRole, []⟩] []
    let dev : Option Caller := some ⟨"u1", none, []⟩
    let later := "user(id: \"u1\") \x7b email \x7d".toList
    let request := Heading.bare.request
      ("user(id: \"u2\"), me \x7b id \x7d, nobody, 2 users, ".toList ++ later)
    ∃ data v, (tryExecute .permissive s request dev).result = .ok data ∧
      data.keys = ["user", "me"] ∧ data.get? "user" = some v ∧
      (tryExecute .permissive s (Heading.query.request later) dev).result
        = .ok (Ordered.ofList [("user", v)]) := by
  intro s dev later request
  let body : Text := "user(id: \"u2\"), me \x7b id \x7d, nobody, 2 users, ".toList ++ later
  have hdoc : request.document = .ok ⟨.query, none, none, body⟩ := by decide +kernel
  have hkeys : (tryExecute .permissive s request dev).result.toOption.map Ordered.keys
      = some ["user", "me"] := by
    decide +kernel
  let last : LastUnit .query (splitSelections body) "user" :=
    { before := ["user(id: \"u2\")".toList, "me \x7b id \x7d".toList, "nobody".toList,
        "2 users".toList]
      unit := later
      behind := []
      call := ⟨.user, ⟨"user", Ordered.ofList [("id", "u1")], some " email ".toList⟩⟩
      together := by decide +kernel
      isCall := by decide +kernel
      named := rfl
      last := fun unit hunit => absurd hunit List.not_mem_nil }
  cases hdata : (tryExecute .permissive s request dev).result with
  | error e =>
    rw [hdata] at hkeys
    cases hkeys
  | ok data =>
    rw [hdata] at hkeys
    have hkeys : data.keys = ["user", "me"] := Option.some.inj hkeys
    have hmem : "user" ∈ data.keys := by
      rw [hkeys]
      exact List.mem_cons_self
    obtain ⟨v, hv⟩ := Ordered.mem_keys_iff.mp hmem
    obtain ⟨l, -, halone⟩ := (last_units_make_the_data hdoc (by decide) hdata).2 "user" v hv
    obtain rfl : l = last := Subsingleton.elim l last
    exact ⟨data, v, rfl, hkeys, hv, halone rfl .query rfl⟩

end ForgeQuery
