import ForgeQuery.Proofs.Stepping

/-!
# What stands in a record

A record is written as an object, whose members name its fields, or as an array, whose items are its
fields in order. `Stands` says of either form where the value of a field begins, with no word on how
records are read: members and items in front of it are only stepped over, whatever they are.

A reader of records follows this description (`readRecord_decides`): what one field alone decides
about a record holds of the outcome just when a value stands there that is not `null`. It rests on
two facts about each field. Its own reader decides (`RecordField.Decides`), and the readers of the
other fields leave the matter as it is (`RecordField.Spares`).
-/

namespace ForgeQuery

namespace Json

variable {α σ : Type} {s rest value : Input}

/-! ## Where a field stands -/

/-- The value `null` begins here, perhaps behind blanks. -/
def IsNull (s : Input) : Prop := ∃ rest, skipBlanks s = Symbol.ofText ['n', 'u', 'l', 'l'] ++ rest

/-- Among the members from the quote of the first name on, the value of one with this name begins
at `value`. -/
inductive MemberAt (name : String) (value : Input) : Input → Prop where
  | here {s₀ s₁ : Input} (hname : readText s₀ = .ok (name, s₁))
      (hcolon : readColon s₁ = .ok value) : MemberAt name value (.char '"' :: s₀)
  | later {s₀ s₁ s₂ s₃ s₄ : Input} {other : String} (hname : readText s₀ = .ok (other, s₁))
      (hcolon : readColon s₁ = .ok s₂) (hafter : After s₂ s₃)
      (hcomma : skipBlanks s₃ = .char ',' :: s₄) (hrest : MemberAt name value (skipBlanks s₄)) :
      MemberAt name value (.char '"' :: s₀)

/-- The next item of an array begins at `item`. With `first` there has been none yet, so that no
comma is due. -/
def Begins (first : Bool) (s item : Input) : Prop :=
  (∀ t, item ≠ .char ']' :: t) ∧
    if first then skipBlanks s = item
    else ∃ s', skipBlanks s = .char ',' :: s' ∧ skipBlanks s' = item

/-- Among the items that are left of an array, the one with this index begins at `value`. -/
inductive ItemAt (value : Input) : Bool → Nat → Input → Prop where
  | here {first : Bool} {s : Input} (h : Begins first s value) : ItemAt value first 0 s
  | later {first : Bool} {index : Nat} {s item rest : Input} (h : Begins first s item)
      (hafter : After item rest) (hrest : ItemAt value false index rest) :
      ItemAt value first (index + 1) s

/-- In a record, the value of the field with this place and name begins at `value`. -/
def Stands (s : Input) (place : Nat) (name : String) (value : Input) : Prop :=
  (∃ t, skipBlanks s = .char '\x7b' :: t ∧ MemberAt name value (skipBlanks t)) ∨
    ∃ t, skipBlanks s = .char '[' :: t ∧ ItemAt value true place t

/-! ## Fields -/

/-- The field is read up to the end of its value, and `P` then holds of the record unless that
is `null`. -/
def RecordField.Decides (field : RecordField σ) (P : σ → Prop) : Prop :=
  ∀ record s next rest, field.read record s = .ok (next, rest) →
    After s rest ∧ (P next ↔ ¬ IsNull s)

/-- The field is read up to the end of its value, and `P` is what it was. -/
def RecordField.Spares (field : RecordField σ) (P : σ → Prop) : Prop :=
  ∀ record s next rest, field.read record s = .ok (next, rest) →
    After s rest ∧ (P next ↔ P record)

/-! ## The form of an object -/

section Members

variable {fields : List (RecordField σ)} {field : RecordField σ} {name : String} {P : σ → Prop}
  {seen seen' : List String} {record record' : σ}

/-- The member of a known name is read by its field, and only once. -/
theorem readField_of_find? (hfield : fields.find? (fun f => f.name == name) = some field)
    (h : readField fields (seen, record) name s = .ok ((seen', record'), rest)) :
    ∃ s', readColon s = .ok s' ∧ name ∉ seen ∧ field.read record s' = .ok (record', rest) ∧
      seen' = name :: seen := by
  simp only [readField, hfield] at h
  split_ifs at h with hseen
  obtain ⟨s', hcolon, h⟩ := bind_eq_ok_iff.mp h
  obtain ⟨⟨next, r⟩, hread, h⟩ := bind_eq_ok_iff.mp h
  obtain ⟨hsofar, rfl⟩ := Prod.mk.inj (Except.ok.inj h)
  obtain ⟨rfl, rfl⟩ := Prod.mk.inj hsofar
  exact ⟨s', hcolon, hseen, hread, rfl⟩

/-- The member of an unknown name is stepped over. -/
theorem readField_of_unknown (hfield : fields.find? (fun f => f.name == name) = none)
    (h : readField fields (seen, record) name s = .ok ((seen', record'), rest)) :
    ∃ s', readColon s = .ok s' ∧ skipValue s' = .ok rest ∧ seen' = seen ∧ record' = record := by
  simp only [readField, hfield] at h
  obtain ⟨s', hcolon, h⟩ := bind_eq_ok_iff.mp h
  obtain ⟨r, hskip, h⟩ := bind_eq_ok_iff.mp h
  obtain ⟨hsofar, rfl⟩ := Prod.mk.inj (Except.ok.inj h)
  obtain ⟨rfl, rfl⟩ := Prod.mk.inj hsofar
  exact ⟨s', hcolon, hskip, rfl, rfl⟩

/-- A member with another name is read up to the end of its value and settles nothing about the
field. -/
theorem readField_of_ne (hspares : ∀ f ∈ fields, f.name ≠ name → f.Spares P) {other : String}
    (hne : other ≠ name)
    (h : readField fields (seen, record) other s = .ok ((seen', record'), rest)) :
    (∃ s', readColon s = .ok s' ∧ After s' rest) ∧ (name ∈ seen' ↔ name ∈ seen) ∧
      (P record' ↔ P record) := by
  cases hother : fields.find? fun f => f.name == other with
  | none =>
    obtain ⟨s', hcolon, hskip, rfl, rfl⟩ := readField_of_unknown hother h
    exact ⟨⟨s', hcolon, _, hskip⟩, Iff.rfl, Iff.rfl⟩
  | some g =>
    obtain ⟨s', hcolon, -, hread, rfl⟩ := readField_of_find? hother h
    have hname : g.name = other := by simpa using List.find?_some hother
    obtain ⟨hafter, hiff⟩ := hspares g (List.mem_of_find?_eq_some hother) (hname ▸ hne)
      record s' record' rest hread
    refine ⟨⟨s', hcolon, hafter⟩, ?_, hiff⟩
    rw [List.mem_cons]
    exact or_iff_right (Ne.symm hne)

/-- Behind a member others follow, and the value of one with this name begins at `value`. -/
def MemberBehind (name : String) (value s : Input) : Prop :=
  ∃ s', skipBlanks s = .char ',' :: s' ∧ MemberAt name value (skipBlanks s')

theorem not_memberBehind {more : Input} (hclose : skipBlanks s = .char '\x7d' :: more) :
    ¬ MemberBehind name value s := by
  rintro ⟨s', hcomma, -⟩
  rw [hclose] at hcomma
  exact absurd (Symbol.head_eq hcomma) (by decide)

theorem memberBehind_iff {s' : Input} (hcomma : skipBlanks s = .char ',' :: s') :
    MemberBehind name value s ↔ MemberAt name value (skipBlanks s') := by
  simp only [MemberBehind, hcomma, List.cons.injEq, true_and, exists_eq_left']

/-- Of members the first one has the name, or one behind it has. -/
theorem memberAt_iff {s₀ s₁ s₂ s₃ : Input} {other : String}
    (hname : readText s₀ = .ok (other, s₁)) (hcolon : readColon s₁ = .ok s₂)
    (hafter : After s₂ s₃) :
    MemberAt name value (.char '"' :: s₀) ↔
      other = name ∧ s₂ = value ∨ MemberBehind name value s₃ := by
  constructor
  · intro h
    cases h with
    | here hname' hcolon' =>
      rw [hname] at hname'
      obtain ⟨rfl, rfl⟩ := Prod.mk.inj (Except.ok.inj hname')
      rw [hcolon] at hcolon'
      exact Or.inl ⟨rfl, Except.ok.inj hcolon'⟩
    | later hname' hcolon' hafter' hcomma hrest =>
      rw [hname] at hname'
      obtain ⟨rfl, rfl⟩ := Prod.mk.inj (Except.ok.inj hname')
      rw [hcolon] at hcolon'
      obtain rfl := Except.ok.inj hcolon'
      obtain rfl := hafter.eq hafter'
      exact Or.inr ⟨_, hcomma, hrest⟩
  · rintro (⟨rfl, rfl⟩ | ⟨s₄, hcomma, hrest⟩)
    · exact .here hname hcolon
    · exact .later hname hcolon hafter hcomma hrest

/-- Once the field has come, its name does not come again, and nothing changes about it. -/
theorem readMembers_of_seen (hfield : fields.find? (fun f => f.name == name) = some field)
    (hspares : ∀ f ∈ fields, f.name ≠ name → f.Spares P) {n : Nat} (hseen : name ∈ seen)
    (h : readMembers (readField fields) n (seen, record) s = .ok ((seen', record'), rest)) :
    (P record' ↔ P record) ∧ ∀ value, ¬ MemberAt name value s := by
  induction n generalizing seen record s with
  | zero => cases h
  | succ n ih =>
    obtain ⟨s₀, other, s₁, ⟨seen₁, record₁⟩, s₂, rfl, hname, hmember, hback⟩ :=
      readMembers_succ_iff.mp h
    have hne : other ≠ name := by
      rintro rfl
      obtain ⟨-, -, hnew, -⟩ := readField_of_find? hfield hmember
      exact hnew hseen
    obtain ⟨⟨s', hcolon, hafter⟩, hkeep, hiff⟩ := readField_of_ne hspares hne hmember
    simp only [memberAt_iff hname hcolon hafter, hne, false_and, false_or]
    rcases hback with ⟨hclose, heq⟩ | ⟨s₃, hcomma, hrest⟩
    · obtain ⟨rfl, rfl⟩ := Prod.mk.inj heq
      exact ⟨hiff, fun value => not_memberBehind hclose⟩
    · obtain ⟨hlater, hnone⟩ := ih (hkeep.mpr hseen) hrest
      simp only [memberBehind_iff hcomma]
      exact ⟨hlater.trans hiff, hnone⟩

/-- Members decide about a field by the value that stands under its name. -/
theorem readMembers_decides (hfield : fields.find? (fun f => f.name == name) = some field)
    (hdecides : field.Decides P) (hspares : ∀ f ∈ fields, f.name ≠ name → f.Spares P) {n : Nat}
    (hseen : name ∉ seen) (hrecord : ¬ P record)
    (h : readMembers (readField fields) n (seen, record) s = .ok ((seen', record'), rest)) :
    P record' ↔ ∃ value, MemberAt name value s ∧ ¬ IsNull value := by
  induction n generalizing seen record s with
  | zero => cases h
  | succ n ih =>
    obtain ⟨s₀, other, s₁, ⟨seen₁, record₁⟩, s₂, rfl, hname, hmember, hback⟩ :=
      readMembers_succ_iff.mp h
    by_cases hne : other = name
    · subst hne
      obtain ⟨s', hcolon, -, hread, rfl⟩ := readField_of_find? hfield hmember
      obtain ⟨hafter, hiff⟩ := hdecides record s' record₁ s₂ hread
      -- this member settles the matter, since the name does not come again
      have hbehind : (P record' ↔ P record₁) ∧ ∀ value, ¬ MemberBehind other value s₂ := by
        rcases hback with ⟨hclose, heq⟩ | ⟨s₃, hcomma, hrest⟩
        · rw [(Prod.mk.inj heq).2]
          exact ⟨Iff.rfl, fun value => not_memberBehind hclose⟩
        · simp only [memberBehind_iff hcomma]
          exact readMembers_of_seen hfield hspares List.mem_cons_self hrest
      simp only [memberAt_iff hname hcolon hafter, hbehind.2, true_and, or_false,
        exists_eq_left']
      exact hbehind.1.trans hiff
    · obtain ⟨⟨s', hcolon, hafter⟩, hkeep, hiff⟩ := readField_of_ne hspares hne hmember
      have hrecord₁ : ¬ P record₁ := fun hP => hrecord (hiff.mp hP)
      simp only [memberAt_iff hname hcolon hafter, hne, false_and, false_or]
      rcases hback with ⟨hclose, heq⟩ | ⟨s₃, hcomma, hrest⟩
      · rw [(Prod.mk.inj heq).2]
        exact iff_of_false hrecord₁ fun ⟨value, hlater, _⟩ => not_memberBehind hclose hlater
      · simp only [memberBehind_iff hcomma]
        exact ih (fun hmem => hseen (hkeep.mp hmem)) hrecord₁ hrest

/-- **An object decides about a field by the value that stands under its name.** -/
theorem readObject_decides (hfield : fields.find? (fun f => f.name == name) = some field)
    (hdecides : field.Decides P) (hspares : ∀ f ∈ fields, f.name ≠ name → f.Spares P)
    (hrecord : ¬ P record)
    (h : readObject (readField fields) ([], record) s = .ok ((seen', record'), rest)) :
    P record' ↔ ∃ value, MemberAt name value (skipBlanks s) ∧ ¬ IsNull value := by
  unfold readObject at h
  split at h
  · next t hclose =>
    rw [← (Prod.mk.inj (Prod.mk.inj (Except.ok.inj h)).1).2, hclose]
    refine iff_of_false hrecord ?_
    rintro ⟨value, hmember, -⟩
    cases hmember
  · exact readMembers_decides hfield hdecides hspares List.not_mem_nil hrecord h

end Members

/-! ## The form of an array -/

section Items

variable {fields behind : List (RecordField σ)} {field : RecordField σ} {P : σ → Prop}
  {first : Bool} {record record' : σ}

theorem Begins.eq {item item' : Input} (h : Begins first s item) (h' : Begins first s item') :
    item = item' := by
  obtain ⟨-, h⟩ := h
  obtain ⟨-, h'⟩ := h'
  cases first with
  | true => exact h.symm.trans h'
  | false =>
    obtain ⟨t, hcomma, rfl⟩ := h
    obtain ⟨t', hcomma', rfl⟩ := h'
    rw [hcomma] at hcomma'
    rw [(List.cons.inj hcomma').2]

/-- No item begins where the array is closed. -/
theorem not_begins {more item : Input} (hclose : skipBlanks s = .char ']' :: more) :
    ¬ Begins first s item := by
  rintro ⟨hopen, h⟩
  cases first with
  | true => exact hopen more (h.symm.trans hclose)
  | false =>
    obtain ⟨t, hcomma, -⟩ := h
    rw [hclose] at hcomma
    exact absurd (Symbol.head_eq hcomma) (by decide)

/-- At the place of a field the array is closed, or an item begins that is read by the field. -/
theorem readPositions_cons_eq_ok
    (h : readPositions first (field :: fields) record s = .ok (record', rest)) :
    skipBlanks s = .char ']' :: rest ∧ record' = record ∨
      ∃ item next s', Begins first s item ∧ field.read record item = .ok (next, s') ∧
        readPositions false fields next s' = .ok (record', rest) := by
  rw [readPositions] at h
  split at h
  · cases h
  · next hclose =>
    obtain ⟨rfl, rfl⟩ := Prod.mk.inj (Except.ok.inj h)
    exact Or.inl ⟨hclose, rfl⟩
  · next hend hclose =>
    split_ifs at h with hfirst
    · subst hfirst
      obtain ⟨⟨next, s'⟩, hread, h⟩ := bind_eq_ok_iff.mp h
      exact Or.inr ⟨skipBlanks s, next, s', ⟨fun t ht => hclose t ht, rfl⟩, hread, h⟩
    · split at h
      · next t hcomma =>
        split at h
        · cases h
        · cases h
        · next hend' hclose' =>
          obtain ⟨⟨next, s'⟩, hread, h⟩ := bind_eq_ok_iff.mp h
          refine Or.inr ⟨skipBlanks t, next, s', ⟨fun t' ht' => hclose' t' ht', ?_⟩, hread, h⟩
          rw [if_neg hfirst]
          exact ⟨t, hcomma, rfl⟩
      · cases h

/-- Items of other fields settle nothing. -/
theorem readPositions_spares (hspares : ∀ f ∈ fields, f.Spares P)
    (h : readPositions first fields record s = .ok (record', rest)) : P record' ↔ P record := by
  induction fields generalizing first record s with
  | nil =>
    rw [(map_mk_eq_ok h).2]
  | cons f fields ih =>
    obtain ⟨hf, hfields⟩ := List.forall_mem_cons.mp hspares
    rcases readPositions_cons_eq_ok h with ⟨-, rfl⟩ | ⟨item, next, s', -, hread, h⟩
    · exact Iff.rfl
    · exact (ih hfields h).trans (hf record item next s' hread).2

/-- **Items decide about a field by the value that stands at its place.** -/
theorem readPositions_decides {front : List (RecordField σ)} (hdecides : field.Decides P)
    (hfront : ∀ f ∈ front, f.Spares P) (hbehind : ∀ f ∈ behind, f.Spares P)
    (hrecord : ¬ P record)
    (h : readPositions first (front ++ field :: behind) record s = .ok (record', rest)) :
    P record' ↔ ∃ value, ItemAt value first front.length s ∧ ¬ IsNull value := by
  induction front generalizing first record s with
  | nil =>
    rcases readPositions_cons_eq_ok h with ⟨hclose, rfl⟩ | ⟨item, next, s', hbegins, hread, h⟩
    · refine iff_of_false hrecord ?_
      rintro ⟨value, hitem, -⟩
      cases hitem with
      | here hbegins => exact not_begins hclose hbegins
    · rw [readPositions_spares hbehind h, (hdecides record item next s' hread).2]
      constructor
      · exact fun hnull => ⟨item, .here hbegins, hnull⟩
      · rintro ⟨value, hitem, hnull⟩
        cases hitem with
        | here hbegins' => exact hbegins.eq hbegins' ▸ hnull
  | cons f front ih =>
    obtain ⟨hf, hfront⟩ := List.forall_mem_cons.mp hfront
    rcases readPositions_cons_eq_ok h with ⟨hclose, rfl⟩ | ⟨item, next, s', hbegins, hread, h⟩
    · refine iff_of_false hrecord ?_
      rintro ⟨value, hitem, -⟩
      cases hitem with
      | later hbegins _ _ => exact not_begins hclose hbegins
    · obtain ⟨hafter, hiff⟩ := hf record item next s' hread
      rw [ih hfront (fun hP => hrecord (hiff.mp hP)) h]
      refine exists_congr fun value => and_congr_left fun _ => ?_
      constructor
      · exact fun hitem => .later hbegins hafter hitem
      · intro hitem
        cases hitem with
        | later hbegins' hafter' hitem =>
          obtain rfl := hbegins.eq hbegins'
          obtain rfl := hafter.eq hafter'
          exact hitem

theorem readPositions_invariant
    (h : ∀ f ∈ fields, ∀ record s next rest,
      f.read record s = .ok (next, rest) → P record → P next)
    (hread : readPositions first fields record s = .ok (record', rest)) (hrecord : P record) :
    P record' := by
  induction fields generalizing first record s with
  | nil =>
    exact (map_mk_eq_ok hread).2 ▸ hrecord
  | cons f fields ih =>
    obtain ⟨hf, hfields⟩ := List.forall_mem_cons.mp h
    rcases readPositions_cons_eq_ok hread with ⟨-, rfl⟩ | ⟨item, next, s', -, hitem, hread⟩
    · exact hrecord
    · exact ih hfields hread (hf record item next s' hitem hrecord)

end Items

/-! ## Records -/

theorem find?_field {front behind : List (RecordField σ)} {field : RecordField σ}
    (hfront : ∀ f ∈ front, f.name ≠ field.name) :
    (front ++ field :: behind).find? (fun f => f.name == field.name) = some field := by
  have hnone : front.find? (fun f => f.name == field.name) = none :=
    List.find?_eq_none.mpr fun f hf => by simpa using hfront f hf
  rw [List.find?_append, hnone, Option.none_or, List.find?_cons_of_pos (by simp)]

/-- **A record says of a field what stands in its text**: what the field alone decides holds of the
record just when a value stands at its place or under its name that is not `null`. -/
theorem readRecord_decides {fields front behind : List (RecordField σ)} {field : RecordField σ}
    (hfields : fields = front ++ field :: behind) {P : σ → Prop} {start record : σ}
    (hdecides : field.Decides P) (hfront : ∀ f ∈ front, f.name ≠ field.name ∧ f.Spares P)
    (hbehind : ∀ f ∈ behind, f.name ≠ field.name ∧ f.Spares P) (hstart : ¬ P start)
    (h : readRecord fields start s = .ok (record, rest)) :
    P record ↔ ∃ value, Stands s front.length field.name value ∧ ¬ IsNull value := by
  subst hfields
  unfold readRecord at h
  split at h
  · next t hbrace =>
    have hstands (value : Input) :
        Stands s front.length field.name value ↔ MemberAt field.name value (skipBlanks t) := by
      simp [Stands, hbrace]
    simp only [hstands]
    obtain ⟨⟨seen, record'⟩, hread, rfl⟩ := map_fst_eq_ok h
    have hspares : ∀ f ∈ front ++ field :: behind, f.name ≠ field.name → f.Spares P := by
      intro f hf hne
      rcases List.mem_append.mp hf with hf | hf
      · exact (hfront f hf).2
      · rcases List.mem_cons.mp hf with rfl | hf
        · exact absurd rfl hne
        · exact (hbehind f hf).2
    exact readObject_decides (find?_field fun f hf => (hfront f hf).1) hdecides hspares hstart
      hread
  · next t hbracket =>
    have hstands (value : Input) :
        Stands s front.length field.name value ↔ ItemAt value true front.length t := by
      simp [Stands, hbracket]
    simp only [hstands]
    exact readPositions_decides hdecides (fun f hf => (hfront f hf).2)
      (fun f hf => (hbehind f hf).2) hstart h
  · cases h

/-- What every field preserves holds of a record if it does of the one that it starts from. -/
theorem readRecord_invariant {fields : List (RecordField σ)} {P : σ → Prop}
    (h : ∀ f ∈ fields, ∀ record s next rest,
      f.read record s = .ok (next, rest) → P record → P next) {start record : σ}
    (hread : readRecord fields start s = .ok (record, rest)) (hstart : P start) : P record := by
  unfold readRecord at hread
  split at hread
  · obtain ⟨⟨seen, record'⟩, hobject, rfl⟩ := map_fst_eq_ok hread
    refine readObject_invariant (P := fun sofar : List String × σ => P sofar.2) ?_ hobject hstart
    rintro ⟨seen, record⟩ name s ⟨seen', record'⟩ rest hmember hrecord
    cases hname : fields.find? fun f => f.name == name with
    | none =>
      obtain ⟨-, -, -, -, rfl⟩ := readField_of_unknown hname hmember
      exact hrecord
    | some f =>
      obtain ⟨s', -, -, hf, -⟩ := readField_of_find? hname hmember
      exact h f (List.mem_of_find?_eq_some hname) record s' record' rest hf hrecord
  · exact readPositions_invariant h hread hstart
  · cases hread

/-! ## Values of fields -/

/-- Nothing stands behind a word but what was there. -/
theorem readWord_eq_ok_iff {word : Text} :
    readWord word s = .ok rest ↔ s = Symbol.ofText word ++ rest := by
  induction word generalizing s with
  | nil => simp [readWord]
  | cons w word ih =>
    cases s with
    | nil => simp [readWord]
    | cons x s =>
      rw [readWord, Symbol.ofText_cons, List.cons_append, List.cons.injEq]
      by_cases hx : x = .char w
      · rw [if_pos hx, ih, and_iff_right hx]
      · rw [if_neg hx]
        exact iff_of_false (fun h => by cases h) fun h => hx h.1

/-- Blanks in front of a value do not matter. -/
theorem After.of_skipBlanks (h : After (skipBlanks s) rest) : After s rest := by
  obtain ⟨depth, h⟩ := h
  refine ⟨depth, ?_⟩
  unfold skipNested at h ⊢
  rwa [skipBlanks_skipBlanks] at h

/-- An optional value is read up to its end, and there is one unless it is `null`. -/
theorem readOptional_decides {read : Input → Except Fault (α × Input)}
    (hread : ∀ s x rest, read s = .ok (x, rest) → After s rest) {x : Option α}
    (h : readOptional read s = .ok (x, rest)) :
    After s rest ∧ (x.isSome = true ↔ ¬ IsNull s) := by
  unfold readOptional at h
  split at h
  · next t ht =>
    obtain ⟨hword, rfl⟩ := map_mk_eq_ok h
    refine ⟨⟨0, ?_⟩, ?_⟩
    · unfold skipNested
      simpa only [ht] using hword
    · have hnull : IsNull s := ⟨rest, by rw [ht, readWord_eq_ok_iff.mp hword]; rfl⟩
      exact iff_of_false Bool.false_ne_true (fun h => h hnull)
  · next hn =>
    obtain ⟨a, ha, rfl⟩ := map_fst_eq_ok h
    refine ⟨(hread _ a rest ha).of_skipBlanks, iff_of_true rfl ?_⟩
    rintro ⟨t, ht⟩
    exact hn _ ht

/-- An optional value that is there was read as a value. -/
theorem exists_of_readOptional {read : Input → Except Fault (α × Input)} {a : α}
    (h : readOptional read s = .ok (some a, rest)) : read (skipBlanks s) = .ok (a, rest) := by
  unfold readOptional at h
  split at h
  · cases (map_mk_eq_ok h).2
  · obtain ⟨a', ha, hsome⟩ := map_fst_eq_ok h
    rwa [← Option.some.inj hsome]

/-- An optional value that is there is not `null`. -/
theorem ne_null_of_readOptional {depth : Nat} {v : Json}
    (h : readOptional (readValue depth) s = .ok (some v, rest)) : v ≠ .null := by
  have hread := exists_of_readOptional h
  rintro rfl
  obtain ⟨t, ht⟩ := (eq_null_iff_of_readValue hread).mp rfl
  rw [skipBlanks_skipBlanks] at ht
  unfold readOptional at h
  simp only [ht] at h
  cases (map_mk_eq_ok h).2

theorem after_of_readStringValue {t : String} (h : readStringValue s = .ok (t, rest)) :
    After s rest := by
  unfold readStringValue at h
  split at h
  · next s' hs =>
    refine ⟨0, ?_⟩
    unfold skipNested
    simpa only [hs] using skipString_of_readText h
  · cases h

/-- Reading an object is reading a value that is one. -/
theorem readObjectValue_eq_ok_iff {depth : Nat} {o : Object} :
    readObjectValue depth s = .ok (o, rest) ↔ readValue depth s = .ok (.ofObject o, rest) := by
  constructor
  · intro h
    unfold readObjectValue at h
    split at h
    · next t depth hs =>
      rw [readValue]
      simp only [hs, h, map_ok]
    · cases h
    · cases h
  · intro h
    unfold readValue at h
    split at h
    -- no other value is an object
    case h_1 | h_9 => cases h
    case h_2 | h_3 | h_4 => exact Json.noConfusion (map_mk_eq_ok h).2
    case h_5 =>
      obtain ⟨t, -, heq⟩ := map_fst_eq_ok h
      exact Json.noConfusion heq
    case h_6 =>
      split at h
      · cases h
      · obtain ⟨items, -, heq⟩ := map_fst_eq_ok h
        exact Json.noConfusion heq
    case h_7 hs =>
      split at h
      · cases h
      · obtain ⟨o', ho', heq⟩ := map_fst_eq_ok h
        obtain rfl : o' = o := Ordered.ext (Json.object.inj heq)
        unfold readObjectValue
        simp only [hs, ho']
    case h_8 =>
      split_ifs at h
      obtain ⟨n, -, heq⟩ := map_fst_eq_ok h
      exact Json.noConfusion heq

theorem after_of_readObjectValue {depth : Nat} {o : Object}
    (h : readObjectValue depth s = .ok (o, rest)) : After s rest :=
  ⟨depth, skipNested_of_readValue (readObjectValue_eq_ok_iff.mp h)⟩

/-- A whole text is read as an object just when it is read as a value that is one. -/
theorem readWith_readObjectValue_eq_ok_iff {depth : Nat} {o : Object} :
    readWith (readObjectValue depth) s = .ok o ↔
      readWith (readValue depth) s = .ok (.ofObject o) := by
  simp only [readWith_eq_ok_iff, readObjectValue_eq_ok_iff]

/-! ## Fields with an optional value -/

/-- The field reads an optional value, and `set` says what the record is with it. -/
def RecordField.Sets (field : RecordField σ) (value : Input → Except Fault (α × Input))
    (set : σ → Option α → σ) : Prop :=
  ∀ record s, field.read record s = (readOptional value s >>= fun x => .ok (set record x.1, x.2))

namespace RecordField.Sets

variable {field : RecordField σ} {value : Input → Except Fault (α × Input)}
  {set : σ → Option α → σ} {P : σ → Prop}

theorem eq_ok (h : field.Sets value set) {record next : σ}
    (hread : field.read record s = .ok (next, rest)) :
    ∃ x, readOptional value s = .ok (x, rest) ∧ next = set record x := by
  rw [h record s] at hread
  obtain ⟨⟨x, r⟩, hx, heq⟩ := bind_eq_ok_iff.mp hread
  obtain ⟨rfl, rfl⟩ := Prod.mk.inj (Except.ok.inj heq)
  exact ⟨x, hx, rfl⟩

/-- Whether there is a value is decided by the field. -/
theorem decides (h : field.Sets value set)
    (hvalue : ∀ s x rest, value s = .ok (x, rest) → After s rest)
    (hP : ∀ record x, P (set record x) ↔ x.isSome = true) : field.Decides P := by
  intro record s next rest hread
  obtain ⟨x, hx, rfl⟩ := h.eq_ok hread
  obtain ⟨hafter, hiff⟩ := readOptional_decides hvalue hx
  exact ⟨hafter, (hP record x).trans hiff⟩

/-- What the field does not set is spared. -/
theorem spares (h : field.Sets value set)
    (hvalue : ∀ s x rest, value s = .ok (x, rest) → After s rest)
    (hP : ∀ record x, P (set record x) ↔ P record) : field.Spares P := by
  intro record s next rest hread
  obtain ⟨x, hx, rfl⟩ := h.eq_ok hread
  exact ⟨(readOptional_decides hvalue hx).1, hP record x⟩

/-- A value that does not look like `null` is read and set, with blanks in front of it or not. -/
theorem read_some (h : field.Sets value set) {gap : Text} (hgap : AllBlank gap) {c : Char}
    (hblank : isBlank (.char c) = false) (hn : c ≠ 'n') {a : α}
    (hvalue : value (.char c :: s) = .ok (a, rest)) (record : σ) :
    field.read record (Symbol.ofText gap ++ .char c :: s) = .ok (set record (some a), rest) := by
  have hskip : skipBlanks (Symbol.ofText gap ++ .char c :: s) = .char c :: s := by
    rw [skipBlanks_append hgap, skipBlanks,
      List.dropWhile_cons_of_neg (Bool.eq_false_iff.mp hblank)]
  have hoptional : readOptional value (Symbol.ofText gap ++ .char c :: s) = .ok (some a, rest) := by
    unfold readOptional
    rw [hskip]
    split
    · next heq => exact absurd (Symbol.head_eq heq) hn
    · rw [hvalue, map_ok]
  rw [h record, hoptional, bind_ok]

end RecordField.Sets

end Json

end ForgeQuery
