import ForgeQuery.Query.Field

/-!
# Reading written texts back

Every reader of queries takes a text apart from the front: it trims blanks, takes a run of name
characters, or cuts at the first occurrence of a character. This module says what each of them
gives on a text that is put together from known parts.

* `Text.trim_append`, `Text.trim_of_isTight` — blanks around a text are trimmed off, and a text
  without blanks at its ends stays as it is.
* `Text.takeName_of_named` — a name is taken whole when no name character follows.
* `Text.eq_of_append_cons` — a text has one first occurrence of a character.
* `braced?_eq_some_iff` — what stands between braces at the two ends is all between them.
-/

namespace ForgeQuery

namespace Text

/-! ## Blanks -/

/-- Every character of the text is a blank. -/
def IsBlank (t : Text) : Prop := ∀ c ∈ t, isBlank c = true

instance (t : Text) : Decidable (IsBlank t) :=
  decidable_of_iff (t.all isBlank = true) List.all_eq_true

theorem IsBlank.nil : IsBlank [] := List.forall_mem_nil _

theorem IsBlank.space : IsBlank [' '] := by decide

/-- Blanks in front of a text are trimmed off its start. -/
theorem trimStart_append_left {w : Text} (hw : IsBlank w) (t : Text) :
    trimStart (w ++ t) = trimStart t :=
  List.dropWhile_append_of_pos hw

/-- A text that starts with no blank keeps its start. -/
theorem trimStart_of_head {c : Char} (hc : isBlank c = false) (t : Text) :
    trimStart (c :: t) = c :: t := by
  rw [trimStart_cons, if_neg (by rw [hc]; exact Bool.false_ne_true)]

/-- What is trimmed off the end is a stretch of blanks. -/
theorem exists_trimEnd_append (t : Text) : ∃ w, IsBlank w ∧ t = trimEnd t ++ w := by
  refine ⟨(t.reverse.takeWhile isBlank).reverse, ?_, ?_⟩
  · intro c hc
    exact List.all_eq_true.mp List.all_takeWhile c (List.mem_reverse.mp hc)
  · rw [trimEnd, ← List.reverse_append, List.takeWhile_append_dropWhile, List.reverse_reverse]

/-- Blanks behind a text are trimmed off its end. -/
theorem trimEnd_append_right (t : Text) {w : Text} (hw : IsBlank w) :
    trimEnd (t ++ w) = trimEnd t := by
  have h := trimStart_append_left (w := w.reverse)
    (fun c hc => hw c (List.mem_reverse.mp hc)) t.reverse
  rw [trimStart, trimStart] at h
  rw [trimEnd, trimEnd, List.reverse_append, h]

/-- A text that ends with no blank keeps its end. -/
theorem trimEnd_of_getLast {c : Char} (hc : isBlank c = false) (t : Text) :
    trimEnd (t ++ [c]) = t ++ [c] := by
  have h := trimStart_of_head hc t.reverse
  rw [trimStart] at h
  rw [trimEnd, List.reverse_append, List.reverse_singleton, List.singleton_append, h,
    List.reverse_cons, List.reverse_reverse]

/-! ## Texts without blanks at their ends -/

/-- The text starts and ends with characters that are no blanks. -/
structure IsTight (t : Text) : Prop where
  /-- the first character is no blank -/
  head : ∃ c rest, t = c :: rest ∧ isBlank c = false
  /-- the last character is no blank -/
  last : ∃ front c, t = front ++ [c] ∧ isBlank c = false

theorem IsTight.ne_nil {t : Text} (h : IsTight t) : t ≠ [] := by
  obtain ⟨c, rest, rfl, -⟩ := h.head
  exact List.cons_ne_nil c rest

theorem IsTight.singleton {c : Char} (h : isBlank c = false) : IsTight [c] :=
  ⟨⟨c, [], rfl, h⟩, ⟨[], c, rfl, h⟩⟩

/-- The ends of two texts are the ends of one after the other, whatever is between them. -/
theorem IsTight.append {a b : Text} (ha : IsTight a) (m : Text) (hb : IsTight b) :
    IsTight (a ++ (m ++ b)) := by
  obtain ⟨c, rest, rfl, hc⟩ := ha.head
  obtain ⟨front, d, rfl, hd⟩ := hb.last
  refine ⟨⟨c, rest ++ (m ++ (front ++ [d])), rfl, hc⟩, ⟨c :: rest ++ (m ++ front), d, ?_, hd⟩⟩
  rw [List.append_assoc, List.append_assoc]

theorem trim_of_isTight {t : Text} (h : IsTight t) : trim t = t := by
  obtain ⟨c, rest, hs, hc⟩ := h.head
  obtain ⟨front, d, he, hd⟩ := h.last
  have hstart : trimStart t = t := by
    rw [hs]
    exact trimStart_of_head hc rest
  rw [trim, hstart, he]
  exact trimEnd_of_getLast hd front

/-- Blanks on both sides of a text are trimmed off. -/
theorem trim_append {v w : Text} (hv : IsBlank v) {t : Text} (ht : IsTight t) (hw : IsBlank w) :
    trim (v ++ (t ++ w)) = t := by
  obtain ⟨c, rest, rfl, hc⟩ := ht.head
  rw [trim, trimStart_append_left hv, List.cons_append, trimStart_of_head hc, ← List.cons_append,
    trimEnd_append_right _ hw]
  have h := trim_of_isTight ht
  rwa [trim, trimStart_of_head hc] at h

/-- A blank in front of a text makes no difference to what is left of it. -/
theorem trim_cons {c : Char} (hc : isBlank c = true) (t : Text) : trim (c :: t) = trim t := by
  rw [trim, trimStart_cons, if_pos hc, ← trim]

/-- A blank behind a text makes no difference to what is left of it. -/
theorem trim_concat {c : Char} (hc : isBlank c = true) (t : Text) :
    trim (t ++ [c]) = trim t := by
  have hb : IsBlank [c] := fun d hd => List.mem_singleton.mp hd ▸ hc
  induction t with
  | nil => exact trim_cons hc []
  | cons d rest ih =>
    by_cases hd : isBlank d = true
    · rw [List.cons_append, trim_cons hd, trim_cons hd, ih]
    · -- the start stays as it is from here on, and the end is trimmed by itself
      have hd' : isBlank d = false := Bool.eq_false_iff.mpr hd
      rw [trim, trim, List.cons_append, trimStart_of_head hd', trimStart_of_head hd',
        ← List.cons_append, trimEnd_append_right _ hb]

/-- What is no blank is left as it is when a text is trimmed. -/
theorem filter_trim {p : Char → Bool} (hp : ∀ c, isBlank c = true → p c = false) (t : Text) :
    (trim t).filter p = t.filter p := by
  have hblank {w : Text} (hw : IsBlank w) : w.filter p = [] := by
    rw [List.filter_eq_nil_iff]
    intro c hc
    simp [hp c (hw c hc)]
  have hstart : IsBlank (t.takeWhile isBlank) := List.all_eq_true.mp List.all_takeWhile
  obtain ⟨w, hw, hend⟩ := exists_trimEnd_append (trimStart t)
  calc (trim t).filter p
      = (trim t ++ w).filter p := by rw [List.filter_append, hblank hw, List.append_nil]
    _ = (trimStart t).filter p := congrArg (List.filter p) hend.symm
    _ = (t.takeWhile isBlank ++ trimStart t).filter p := by
      rw [List.filter_append, hblank hstart, List.nil_append]
    _ = t.filter p := congrArg (List.filter p) (trimStart_append t)

/-! ## Names -/

/-- Name characters lie between the digits and the small letters. -/
theorem toNat_of_isNameChar {c : Char} (h : isNameChar c = true) :
    0x30 ≤ c.toNat ∧ c.toNat ≤ 0x7A := by
  rw [isNameChar, Bool.or_eq_true, beq_iff_eq] at h
  rcases h with h | rfl
  · -- the three ranges of the class as ranges of numbers
    unfold Char.isAlphanum Char.isAlpha Char.isUpper Char.isLower Char.isDigit at h
    simp only [Bool.or_eq_true, Bool.and_eq_true, decide_eq_true_eq, UInt32.le_iff_toNat_le,
      ge_iff_le] at h
    change ((65 ≤ c.toNat ∧ c.toNat ≤ 90) ∨ (97 ≤ c.toNat ∧ c.toNat ≤ 122)) ∨
      (48 ≤ c.toNat ∧ c.toNat ≤ 57) at h
    omega
  · decide

/-- A name character is no blank. -/
theorem isBlank_of_isNameChar {c : Char} (h : isNameChar c = true) : isBlank c = false := by
  have hc := toNat_of_isNameChar h
  simp only [isBlank, blankRanges, List.any_cons, List.any_nil, Bool.or_eq_false_iff,
    Bool.and_eq_false_iff, decide_eq_false_iff_not, and_true]
  omega

/-- The text is a run of name characters, at least one. -/
structure IsName (t : Text) : Prop where
  /-- there is a character -/
  ne_nil : t ≠ []
  /-- every character is a name character -/
  named : ∀ c ∈ t, isNameChar c = true

instance (t : Text) : Decidable (IsName t) :=
  decidable_of_iff (t ≠ [] ∧ t.all isNameChar = true)
    ⟨fun h => ⟨h.1, List.all_eq_true.mp h.2⟩, fun h => ⟨h.ne_nil, List.all_eq_true.mpr h.named⟩⟩

theorem IsName.isTight {t : Text} (h : IsName t) : IsTight t := by
  constructor
  · obtain ⟨c, rest, rfl⟩ := List.exists_cons_of_ne_nil h.ne_nil
    exact ⟨c, rest, rfl, isBlank_of_isNameChar (h.named c List.mem_cons_self)⟩
  · refine ⟨t.dropLast, t.getLast h.ne_nil, (List.dropLast_concat_getLast h.ne_nil).symm, ?_⟩
    exact isBlank_of_isNameChar (h.named _ (List.getLast_mem h.ne_nil))

/-- A run of name characters is taken whole when no name character follows. -/
theorem takeName_of_named {name rest : Text} (hn : ∀ c ∈ name, isNameChar c = true)
    (hr : ∀ c tail, rest = c :: tail → isNameChar c = false) :
    takeName (name ++ rest) = (name, rest) := by
  have hstop : rest.takeWhile isNameChar = [] ∧ rest.dropWhile isNameChar = rest := by
    cases rest with
    | nil => exact ⟨rfl, rfl⟩
    | cons c tail =>
      have hc : ¬ isNameChar c = true := Bool.eq_false_iff.mp (hr c tail rfl)
      exact ⟨List.takeWhile_cons_of_neg hc, List.dropWhile_cons_of_neg hc⟩
  rw [takeName, List.takeWhile_append_of_pos hn, List.dropWhile_append_of_pos hn, hstop.1,
    hstop.2, List.append_nil]

/-! ## First occurrences -/

/-- What stands in front of the first occurrence of a character, and what follows it, are
settled. -/
theorem eq_of_append_cons {c : Char} {a a' b b' : Text} (ha : c ∉ a) (ha' : c ∉ a')
    (h : a ++ c :: b = a' ++ c :: b') : a = a' ∧ b = b' := by
  have h₁ : splitFirst? c (a ++ c :: b) = some (a, b) := splitFirst?_eq_some_iff.mpr ⟨rfl, ha⟩
  rw [h, splitFirst?_eq_some_iff.mpr ⟨rfl, ha'⟩] at h₁
  obtain ⟨h₂, h₃⟩ := Prod.mk.inj (Option.some.inj h₁)
  exact ⟨h₂.symm, h₃.symm⟩

/-- A text without the character `c` ends before the first `c` of a longer one. -/
theorem exists_of_append_eq {c : Char} {a b a' b' : Text} (ha : c ∉ a)
    (h : a ++ b = a' ++ c :: b') : ∃ m, a' = a ++ m ∧ b = m ++ c :: b' := by
  rcases List.append_eq_append_iff.mp h with ⟨m, h₁, h₂⟩ | ⟨m, h₁, h₂⟩
  · exact ⟨m, h₁, h₂⟩
  · -- `a` reaches up to `c`, so it has to stop right before it
    cases m with
    | nil => exact ⟨[], by rw [h₁, List.append_nil, List.append_nil], h₂.symm⟩
    | cons d m =>
      obtain ⟨rfl, -⟩ := List.cons.inj h₂
      exact absurd (h₁ ▸ List.mem_append_right _ List.mem_cons_self) ha

end Text

/-! ## Brackets -/

/-- There is no list at the start of the text, or it goes up to the first closing parenthesis. -/
theorem parenthesised?_eq_some_iff {t rest : Text} {list : Option Text} :
    parenthesised? t = some (list, rest) ↔
      ((∀ inside, t ≠ '(' :: inside) ∧ list = none ∧ rest = t) ∨
        ∃ v behind, t = '(' :: (v ++ ')' :: behind) ∧ ')' ∉ v ∧
          list = some v ∧ rest = Text.trimStart behind := by
  rw [parenthesised?.eq_def]
  split
  · next inside =>
    constructor
    · intro h
      obtain ⟨⟨v, behind⟩, hsplit, he⟩ := Option.map_eq_some_iff.mp h
      obtain ⟨rfl, rfl⟩ := Prod.mk.inj he
      obtain ⟨rfl, hv⟩ := Text.splitFirst?_eq_some_iff.mp hsplit
      exact Or.inr ⟨v, behind, rfl, hv, rfl, rfl⟩
    · rintro (⟨hno, -⟩ | ⟨v, behind, ht, hv, rfl, rfl⟩)
      · exact absurd rfl (hno inside)
      · rw [(List.cons.inj ht).2, Text.splitFirst?_eq_some_iff.mpr ⟨rfl, hv⟩, Option.map_some]
  · next hno =>
    constructor
    · intro h
      obtain ⟨rfl, rfl⟩ := Prod.mk.inj (Option.some.inj h)
      exact Or.inl ⟨hno, rfl, rfl⟩
    · rintro (⟨-, rfl, rfl⟩ | ⟨v, behind, rfl, -⟩)
      · rfl
      · exact absurd rfl (hno _)

theorem braced?_eq_some_iff {t inner : Text} :
    braced? t = some inner ↔ t = '{' :: (inner ++ ['}']) := by
  constructor
  · intro h
    unfold braced? at h
    split at h
    · rw [Text.stripLast?_eq_some_iff.mp h]
    · cases h
  · rintro rfl
    exact Text.stripLast?_append '}' inner

end ForgeQuery
