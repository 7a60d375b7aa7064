import ForgeQuery.Message.Request
import ForgeQuery.Proofs.StandingFields
import ForgeQuery.Proofs.Utf8

/-!
# Requests survive being written

A request that was read is read again from the text that is written for it (`request_round_trip`),
so long as the numbers of its variables are integers. The text names the document and the operation
just when the body that was read did and gave something other than `null`, the variables just when
there are some, and these in a fixed order.

Nothing is asked of the body but that it was read: it may be an object or an array, name what no
request has, and repeat names inside the variables. Depth is no danger, since the variables that are
kept fit below the limit that they were read under (`isKept_bindings`).
-/

namespace ForgeQuery

namespace Request

open Json

/-! ## The fields of a request -/

/-- The field of the document. -/
def queryField : RecordField Request := fields.get ⟨0, by decide⟩

/-- The field of the operation. -/
def operationField : RecordField Request := fields.get ⟨1, by decide⟩

/-- The field of the variables. -/
def variablesField : RecordField Request := fields.get ⟨2, by decide⟩

theorem forall_fields {P : RecordField Request → Prop} :
    (∀ f ∈ fields, P f) ↔ P queryField ∧ P operationField ∧ P variablesField := by
  rw [show fields = [queryField, operationField, variablesField] from rfl, List.forall_mem_cons,
    List.forall_mem_cons, List.forall_mem_singleton]

theorem sets_query : queryField.Sets readStringValue fun r query => { r with query } :=
  fun _ _ => rfl

theorem sets_operation :
    operationField.Sets readStringValue fun r operationName => { r with operationName } :=
  fun _ _ => rfl

theorem sets_variables : variablesField.Sets (readObjectValue (nestingLimit - 1))
    fun r bindings => { r with bindings := bindings.getD ∅ } :=
  fun _ _ => rfl

/-- A request that was read is the outcome of its record. -/
theorem exists_of_ofBytes {bytes : List UInt8} {r : Request} (h : ofBytes bytes = .ok r) :
    ∃ rest, readRecord fields empty (Symbol.ofBytes bytes) = .ok (r, rest) :=
  exists_of_readWith h

/-! ## What a body says -/

section Body

variable {bytes : List UInt8} {r : Request}

/-- The variables of a request that was read fit below the limit. -/
theorem isKept_bindings (h : ofBytes bytes = .ok r) :
    IsKept (nestingLimit - 1) (.ofObject r.bindings) := by
  obtain ⟨rest, h⟩ := exists_of_ofBytes h
  have hempty : IsKept (nestingLimit - 1) (.ofObject ∅) :=
    .object List.nodup_nil fun m hm => absurd hm List.not_mem_nil
  refine readRecord_invariant (P := fun r => IsKept (nestingLimit - 1) (.ofObject r.bindings))
    (forall_fields.mpr ⟨?_, ?_, ?_⟩) h hempty
  · intro record s next rest hread hrecord
    obtain ⟨x, -, rfl⟩ := sets_query.eq_ok hread
    exact hrecord
  · intro record s next rest hread hrecord
    obtain ⟨x, -, rfl⟩ := sets_operation.eq_ok hread
    exact hrecord
  · intro record s next rest hread hrecord
    obtain ⟨x, hx, rfl⟩ := sets_variables.eq_ok hread
    cases x with
    | none => exact hempty
    | some o => exact .of_readValue (readObjectValue_eq_ok_iff.mp (exists_of_readOptional hx))

/-- A document was read just when the body gave one. -/
theorem isSome_query_iff (h : ofBytes bytes = .ok r) :
    r.query.isSome = true ↔
      ∃ value, Stands (Symbol.ofBytes bytes) 0 "query" value ∧ ¬ IsNull value := by
  obtain ⟨rest, h⟩ := exists_of_ofBytes h
  have hdecides : queryField.Decides fun r => r.query.isSome = true :=
    sets_query.decides (fun _ _ _ => after_of_readStringValue) fun _ _ => Iff.rfl
  have hoperation : operationField.Spares fun r => r.query.isSome = true :=
    sets_operation.spares (fun _ _ _ => after_of_readStringValue) fun _ _ => Iff.rfl
  have hvariables : variablesField.Spares fun r => r.query.isSome = true :=
    sets_variables.spares (fun _ _ _ => after_of_readObjectValue) fun _ _ => Iff.rfl
  have hfields : fields = [] ++ queryField :: [operationField, variablesField] := rfl
  exact readRecord_decides hfields hdecides (by simp)
    (by simpa using ⟨⟨by decide, hoperation⟩, by decide, hvariables⟩) (by simp [empty]) h

/-- An operation was read just when the body gave one. -/
theorem isSome_operationName_iff (h : ofBytes bytes = .ok r) :
    r.operationName.isSome = true ↔
      ∃ value, Stands (Symbol.ofBytes bytes) 1 "operationName" value ∧ ¬ IsNull value := by
  obtain ⟨rest, h⟩ := exists_of_ofBytes h
  have hdecides : operationField.Decides fun r => r.operationName.isSome = true :=
    sets_operation.decides (fun _ _ _ => after_of_readStringValue) fun _ _ => Iff.rfl
  have hquery : queryField.Spares fun r => r.operationName.isSome = true :=
    sets_query.spares (fun _ _ _ => after_of_readStringValue) fun _ _ => Iff.rfl
  have hvariables : variablesField.Spares fun r => r.operationName.isSome = true :=
    sets_variables.spares (fun _ _ _ => after_of_readObjectValue) fun _ _ => Iff.rfl
  have hfields : fields = [queryField] ++ operationField :: [variablesField] := rfl
  exact readRecord_decides hfields hdecides (by simpa using ⟨by decide, hquery⟩)
    (by simpa using ⟨by decide, hvariables⟩) (by simp [empty]) h

end Body

/-! ## Reading a request that was written -/

section Written

variable {L : Layout} {seen : List String}

/-- A string that is written for a field is set again. -/
theorem read_string {field : RecordField Request} {set : Request → Option String → Request}
    (h : field.Sets readStringValue set) (t : String) (r : Request) (level : Nat) (s : Input) :
    field.read r (Symbol.ofText (L.colon ++ L.write level (.string t)) ++ s)
      = .ok (set r (some t), s) := by
  have htext := readStringValue_write (L := L) level t s
  rw [Symbol.ofText_append, List.append_assoc]
  rw [Layout.write, render, renderString, Symbol.ofText_cons, List.cons_append] at htext ⊢
  exact h.read_some L.colon_allBlank rfl (by decide) htext r

/-- Nothing is written for a string that is missing, and a string that is there is read again. -/
theorem takesAll_string {field : RecordField Request} {set : Request → Option String → Request}
    {name : String} (hfield : fields.find? (fun f => f.name == name) = some field)
    (h : field.Sets readStringValue set) (hseen : name ∉ seen) {r : Request}
    (hnone : set r none = r) (x : Option String) :
    TakesAll L (readField fields) (seen, r) (x.toList.map fun t => (name, .string t))
      (x.toList.map (fun _ => name) ++ seen, set r x) := by
  cases x with
  | none =>
    rw [hnone]
    exact .nil
  | some t =>
    exact .cons (takes_readField hfield hseen fun level s _ => read_string h t r level s) .nil

/-- Nothing is written for variables when there are none, and otherwise they are read again. -/
theorem takesAll_variables {r : Request} {o : Object} (hr : r.bindings = ∅)
    (hseen : "variables" ∉ seen) (hk : IsKept (nestingLimit - 1) (.ofObject o))
    (ho : (Json.ofObject o).IsIntegral) :
    ∃ seen', TakesAll L (readField fields) (seen, r)
      (if o.isEmpty then [] else [("variables", .ofObject o)])
      (seen', { r with bindings := o }) := by
  by_cases hempty : o.isEmpty = true
  · have heq : o = r.bindings := hr ▸ Ordered.ext (List.isEmpty_iff.mp hempty)
    rw [if_pos hempty, heq]
    exact ⟨seen, .nil⟩
  · have hfield : fields.find? (fun f => f.name == "variables") = some variablesField := rfl
    refine ⟨"variables" :: seen, ?_⟩
    rw [if_neg hempty]
    refine .cons (takes_readField hfield hseen fun level s _ => ?_) .nil
    have hobject := readObjectValue_write (L := L) hk ho level s
    rw [Symbol.ofText_append, List.append_assoc]
    rw [ofObject, Layout.write_object, Symbol.ofText_cons, List.cons_append] at hobject ⊢
    exact sets_variables.read_some L.colon_allBlank rfl (by decide) hobject r

/-- **The value of a request is read as the request.** -/
theorem readRecord_toJson {r : Request} (hk : IsKept (nestingLimit - 1) (.ofObject r.bindings))
    (hr : (Json.ofObject r.bindings).IsIntegral) (level : Nat) (s : Input) :
    readRecord fields empty (Symbol.ofText (L.write level r.toJson) ++ s) = .ok (r, s) := by
  -- the names that have come and the request so far, in front of each of the three parts
  let query := r.query.toList.map fun t => ("query", Json.string t)
  let operation := r.operationName.toList.map fun t => ("operationName", Json.string t)
  let seen₁ := r.query.toList.map (fun _ => "query") ++ []
  let seen₂ := r.operationName.toList.map (fun _ => "operationName") ++ seen₁
  have hquery : TakesAll L (readField fields) ([], empty) query (seen₁, ⟨r.query, none, ∅⟩) :=
    takesAll_string rfl sets_query List.not_mem_nil rfl r.query
  have hoperation : TakesAll L (readField fields) (seen₁, ⟨r.query, none, ∅⟩) operation
      (seen₂, ⟨r.query, r.operationName, ∅⟩) :=
    takesAll_string rfl sets_operation (by simp [seen₁]) rfl r.operationName
  have hfresh : "variables" ∉ seen₂ := by simp [seen₂, seen₁]
  have hnone : (⟨r.query, r.operationName, ∅⟩ : Request).bindings = ∅ := rfl
  obtain ⟨seen, hvariables⟩ := takesAll_variables hnone hfresh hk hr
  exact readRecord_write ((hquery.append hoperation).append hvariables) level s

end Written

/-! ## The round trip -/

/-- The names in the value of a request. -/
def writtenNames (r : Request) : List String :=
  r.query.toList.map (fun _ => "query") ++ r.operationName.toList.map (fun _ => "operationName")
    ++ if r.bindings.isEmpty then [] else ["variables"]

theorem exists_members (r : Request) :
    ∃ members, r.toJson = .object members ∧ members.map Prod.fst = r.writtenNames := by
  refine ⟨_, rfl, ?_⟩
  simp only [List.map_append, List.map_map, writtenNames]
  congr 1
  split <;> rfl

theorem sublist_writtenNames (r : Request) :
    r.writtenNames.Sublist ["query", "operationName", "variables"] := by
  have hpart {α : Type} (x : Option α) (name : String) :
      (x.toList.map fun _ => name).Sublist [name] := by
    cases x with
    | none => exact List.nil_sublist _
    | some a => exact List.Sublist.refl _
  have hvariables : (if r.bindings.isEmpty then [] else ["variables"]).Sublist ["variables"] := by
    split
    · exact List.nil_sublist _
    · exact List.Sublist.refl _
  exact ((hpart r.query "query").append (hpart r.operationName "operationName")).append hvariables

theorem mem_writtenNames (r : Request) :
    ("query" ∈ r.writtenNames ↔ r.query.isSome = true) ∧
      ("operationName" ∈ r.writtenNames ↔ r.operationName.isSome = true) ∧
      ("variables" ∈ r.writtenNames ↔ r.bindings ≠ ∅) := by
  have hempty : r.bindings.isEmpty = true ↔ r.bindings = ∅ :=
    ⟨fun h => Ordered.ext (List.isEmpty_iff.mp h), fun h => h ▸ rfl⟩
  refine ⟨?_, ?_, ?_⟩
  · cases h : r.query <;> simp [writtenNames, h]
  · cases h : r.operationName <;> simp [writtenNames, h]
  · rw [ne_eq, ← hempty]
    cases h : r.bindings.isEmpty <;> simp [writtenNames, h]

/-- **A request that was read survives being written**, if the numbers of its variables are
integers. The text that is written for it is read as the same request, and what is read from it is
written by the same text. It is an object that names the document and the operation just when the
body gave one that is not `null`, the variables just when there are any, and these in this order. -/
theorem request_round_trip {bytes : List UInt8} {r : Request} (hread : ofBytes bytes = .ok r)
    (hr : (Json.ofObject r.bindings).IsIntegral) :
    ofBytes r.toJson.bytes = .ok r ∧
    (∀ r', ofBytes r.toJson.bytes = .ok r' → r'.toJson.compact = r.toJson.compact) ∧
    ∃ members, r.toJson = .object members ∧
      (members.map Prod.fst).Sublist ["query", "operationName", "variables"] ∧
      ("query" ∈ members.map Prod.fst ↔
        ∃ value, Stands (Symbol.ofBytes bytes) 0 "query" value ∧ ¬ IsNull value) ∧
      ("operationName" ∈ members.map Prod.fst ↔
        ∃ value, Stands (Symbol.ofBytes bytes) 1 "operationName" value ∧ ¬ IsNull value) ∧
      ("variables" ∈ members.map Prod.fst ↔ r.bindings ≠ ∅) := by
  have hagain : ofBytes r.toJson.bytes = .ok r :=
    readWith_bytes fun s _ => readRecord_toJson (isKept_bindings hread) hr 0 s
  obtain ⟨members, hmembers, hnames⟩ := exists_members r
  obtain ⟨hquery, hoperation, hvariables⟩ := mem_writtenNames r
  refine ⟨hagain, fun r' hr' => ?_, members, hmembers, ?_⟩
  · rw [Except.ok.inj (hagain.symm.trans hr')]
  · rw [hnames]
    exact ⟨sublist_writtenNames r, hquery.trans (isSome_query_iff hread),
      hoperation.trans (isSome_operationName_iff hread), hvariables⟩

/-- A body with a name that no request has, an operation that is `null`, and names that are repeated
inside the variables, where the last value of a name stands at its first place. -/
theorem repeated_variable_is_written_once :
    let body := ("\x7b\"x\": [1.5, \x7b\"y\": \"\\ud800\"\x7d], \"operationName\": null, "
      ++ "\"query\": \"\x7b a\\u0001\\n \x7d\", \"variables\": \x7b\"b\": -9223372036854775808, "
      ++ "\"a\": [18446744073709551615, \x7b\"k\": 1, \"l\": 2, \"k\": 3\x7d], "
      ++ "\"b\": 7\x7d\x7d").toList
    let bytes := body.flatMap String.utf8EncodeChar
    ∃ r, ofBytes bytes = .ok r ∧ (Json.ofObject r.bindings).IsIntegral ∧
      r.query = some "\x7b a\u0001\n \x7d" ∧ r.bindings.keys = ["b", "a"] ∧
      ofBytes r.toJson.bytes = .ok r ∧
      (∃ members, r.toJson = .object members ∧ members.map Prod.fst = ["query", "variables"]) ∧
      ¬ ∃ value, Stands (Symbol.ofBytes bytes) 1 "operationName" value ∧ ¬ IsNull value := by
  intro body bytes
  have hfacts : (ofBytes bytes).toOption.map (fun r =>
      (decide (Json.ofObject r.bindings).IsIntegral, r.query, r.bindings.keys, r.writtenNames))
      = some (true, some "\x7b a\u0001\n \x7d", ["b", "a"], ["query", "variables"]) := by
    rw [ofBytes, Symbol.ofBytes_utf8]
    decide +kernel
  cases hread : ofBytes bytes with
  | error fault =>
    rw [hread] at hfacts
    cases hfacts
  | ok r =>
    simp only [hread, Except.toOption, Option.map_some, Option.some.injEq, Prod.mk.injEq,
      decide_eq_true_eq] at hfacts
    obtain ⟨hr, hquery, hkeys, hwritten⟩ := hfacts
    obtain ⟨hagain, -, members, hmembers, -, -, hoperation, -⟩ := request_round_trip hread hr
    obtain ⟨members', hmembers', hnames⟩ := exists_members r
    obtain rfl := Json.object.inj (hmembers.symm.trans hmembers')
    rw [hwritten] at hnames
    refine ⟨r, rfl, hr, hquery, hkeys, hagain, ⟨members, hmembers, hnames⟩, fun h => ?_⟩
    have hmem := hoperation.mpr h
    rw [hnames] at hmem
    exact absurd hmem (by decide)

end Request

end ForgeQuery
