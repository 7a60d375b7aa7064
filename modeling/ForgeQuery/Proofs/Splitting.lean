import ForgeQuery.Proofs.Reading
import ForgeQuery.Query.Selection

/-!
# Splitting bodies that are put together from parts

Where a body is cut depends on the depth alone, and the depth after a text on how often each
bracket occurs in it (`Depth.afterAll_eq`). Hence a balanced part can be split by itself
(`splitSelections_append`), blanks around a body make no difference (`splitSelections_trim`), and a
part that is never at ground depth where it has a separator stays in one piece
(`pieces_of_guarded`, `pieces_append`), as what stands between braces does (`pieces_braced`).
-/

namespace ForgeQuery

/-! ## Balanced texts -/

/-- As many braces and as many parentheses are opened as closed, in whatever order. -/
structure Balanced (t : Text) : Prop where
  /-- the braces -/
  braces : t.count '{' = t.count '}'
  /-- the parentheses -/
  parens : t.count '(' = t.count ')'

theorem Balanced.append {a b : Text} (ha : Balanced a) (hb : Balanced b) : Balanced (a ++ b) := by
  constructor
  · rw [List.count_append, List.count_append, ha.braces, hb.braces]
  · rw [List.count_append, List.count_append, ha.parens, hb.parens]

theorem Balanced.braced {t : Text} (h : Balanced t) : Balanced ('{' :: (t ++ ['}'])) := by
  constructor
  · simp [h.braces]
  · simp [h.parens]

/-- The depth after a text is settled by how often each bracket occurs in it. -/
theorem Depth.afterAll_eq (d : Depth) (t : Text) :
    d.afterAll t
      = ⟨d.braces + t.count '{' - t.count '}', d.parens + t.count '(' - t.count ')'⟩ := by
  induction t generalizing d with
  | nil => simp
  | cons c t ih =>
    rw [afterAll_cons, ih, after]
    -- each bracket moves one difference and its own count, any other character neither
    grind

/-- A balanced text leaves the depth as it was. -/
theorem Balanced.afterAll {t : Text} (h : Balanced t) (d : Depth) : d.afterAll t = d := by
  rw [Depth.afterAll_eq, h.braces, h.parens, Int.add_sub_cancel, Int.add_sub_cancel]

/-- What holds of every prefix can be tested on the prefixes of each length. -/
theorem forall_prefix_iff {t : Text} {P : Text → Prop} :
    (∀ p, p <+: t → P p) ↔ ∀ n ≤ t.length, P (t.take n) := by
  constructor
  · exact fun h n _ => h _ (List.take_prefix n t)
  · intro h p hp
    rw [List.prefix_iff_eq_take.mp hp]
    exact h _ hp.length_le

/-! ## Pieces of texts put together -/

/-- A separator at ground depth is a cut. -/
theorem pieces_cons_of_cut {d : Depth} {c : Char} (h : isSeparator c = true ∧ d = Depth.ground)
    (t : Text) : pieces d (c :: t) = [] :: pieces d t := by
  rw [pieces, if_pos h]

/-- Any other character goes to the front of the first piece. -/
theorem pieces_cons_of_not_cut {d : Depth} {c : Char}
    (h : ¬ (isSeparator c = true ∧ d = Depth.ground)) (t : Text) :
    pieces d (c :: t) = (pieces (d.after c) t).modifyHead (c :: ·) := by
  rw [pieces, if_neg h]

/-- A text without separators is one piece. -/
theorem pieces_of_no_separator (d : Depth) {t : Text} (h : ∀ c ∈ t, isSeparator c = false) :
    pieces d t = [t] := by
  induction t generalizing d with
  | nil => rfl
  | cons c t ih =>
    have hc : ¬ (isSeparator c = true ∧ d = Depth.ground) := by
      rw [h c List.mem_cons_self]
      exact fun hn => Bool.false_ne_true hn.1
    have ht : ∀ e ∈ t, isSeparator e = false := fun e he => h e (List.mem_cons_of_mem c he)
    rw [pieces_cons_of_not_cut hc, ih _ ht, List.modifyHead_cons]

/-- A text that is never at ground depth is one piece. -/
theorem pieces_of_guarded {d : Depth} {t : Text}
    (h : ∀ p, p <+: t → d.afterAll p ≠ Depth.ground) : pieces d t = [t] := by
  induction t generalizing d with
  | nil => rfl
  | cons c t ih =>
    have hd : d ≠ Depth.ground := h [] (List.nil_prefix ..)
    rw [pieces_cons_of_not_cut fun hn => hd hn.2, ih, List.modifyHead_cons]
    intro p hp
    exact h (c :: p) (List.cons_prefix_cons.mpr ⟨rfl, hp⟩)

/-- No name has a cut. -/
theorem Text.IsName.pieces {t : Text} (h : IsName t) (d : Depth) : pieces d t = [t] := by
  refine pieces_of_no_separator d fun c hc => Bool.eq_false_iff.mpr fun hs => ?_
  have hn := h.named c hc
  rw [isSeparator, Bool.or_eq_true, beq_iff_eq, beq_iff_eq] at hs
  rcases hs with rfl | rfl <;> exact absurd hn (by decide)

/-- A part without a cut is carried over into the first piece of what follows it. -/
theorem pieces_append {d : Depth} {a : Text} (h : pieces d a = [a]) (b : Text) :
    pieces d (a ++ b) = (pieces (d.afterAll a) b).modifyHead (a ++ ·) := by
  induction a generalizing d with
  | nil =>
    rw [List.nil_append, Depth.afterAll_nil]
    cases hp : pieces d b with
    | nil => rfl
    | cons p ps => rfl
  | cons c a ih =>
    by_cases hc : isSeparator c = true ∧ d = Depth.ground
    · -- a cut would leave an empty piece in front
      rw [pieces_cons_of_cut hc] at h
      exact absurd (List.cons.inj h).1 (List.cons_ne_nil c a).symm
    · rw [pieces_cons_of_not_cut hc] at h
      have ha : pieces (d.after c) a = [a] := by
        cases hp : pieces (d.after c) a with
        | nil => exact absurd hp (pieces_ne_nil _ _)
        | cons p ps =>
          rw [hp, List.modifyHead_cons] at h
          obtain ⟨h₁, h₂⟩ := List.cons.inj h
          rw [(List.cons.inj h₁).2, h₂]
      rw [List.cons_append, pieces_cons_of_not_cut hc, ih ha, Depth.afterAll_cons]
      cases hp : pieces ((d.after c).afterAll a) b with
      | nil => rfl
      | cons p ps => rfl

/-- Two parts without a cut make a text without a cut. -/
theorem pieces_append_single {d : Depth} {a b : Text} (ha : pieces d a = [a])
    (hb : pieces (d.afterAll a) b = [b]) : pieces d (a ++ b) = [a ++ b] := by
  rw [pieces_append ha, hb, List.modifyHead_cons]

/-- Between braces there is no cut in a text no prefix of which closes more of them than it
opens. -/
theorem pieces_braced {t : Text} (h : ∀ p, p <+: t → p.count '}' ≤ p.count '{') :
    pieces Depth.ground ('{' :: (t ++ ['}'])) = ['{' :: (t ++ ['}'])] := by
  have hopen : pieces Depth.ground ['{'] = [['{']] := rfl
  have hclose (d : Depth) : pieces d ['}'] = [['}']] :=
    pieces_of_no_separator d (by simp [isSeparator])
  have hinner : pieces ⟨1, 0⟩ t = [t] := by
    refine pieces_of_guarded fun p hp hground => ?_
    have hle := h p hp
    have hbraces := congrArg Depth.braces hground
    rw [Depth.afterAll_eq] at hbraces
    simp only [Depth.ground] at hbraces
    omega
  exact pieces_append_single hopen (pieces_append_single hinner (hclose _))

/-- A separator behind a text that ends at ground depth is a cut. -/
theorem pieces_append_separator {d : Depth} {a : Text} (ha : d.afterAll a = Depth.ground)
    {sep : Char} (hs : isSeparator sep = true) (b : Text) :
    pieces d (a ++ sep :: b) = pieces d a ++ pieces Depth.ground b := by
  induction a generalizing d with
  | nil =>
    rw [Depth.afterAll_nil] at ha
    rw [List.nil_append, pieces_cons_of_cut ⟨hs, ha⟩, ha]
    rfl
  | cons c a ih =>
    rw [Depth.afterAll_cons] at ha
    rw [List.cons_append]
    by_cases hc : isSeparator c = true ∧ d = Depth.ground
    · rw [pieces_cons_of_cut hc, pieces_cons_of_cut hc, ih (d.after_separator hc.1 ▸ ha),
        List.cons_append]
    · rw [pieces_cons_of_not_cut hc, pieces_cons_of_not_cut hc, ih ha]
      cases hp : pieces (d.after c) a with
      | nil => exact absurd hp (pieces_ne_nil _ _)
      | cons p ps => rfl

/-- One more character behind a text opens an empty piece, or belongs to the last one. -/
theorem pieces_concat (d : Depth) (t : Text) (c : Char) :
    pieces d (t ++ [c]) = pieces d t ++ [[]] ∨
      ∃ front last, pieces d t = front ++ [last] ∧
        pieces d (t ++ [c]) = front ++ [last ++ [c]] := by
  induction t generalizing d with
  | nil =>
    rw [List.nil_append]
    by_cases hc : isSeparator c = true ∧ d = Depth.ground
    · rw [pieces_cons_of_cut hc]
      exact Or.inl rfl
    · rw [pieces_cons_of_not_cut hc]
      exact Or.inr ⟨[], [], rfl, rfl⟩
  | cons x t ih =>
    rw [List.cons_append]
    by_cases hx : isSeparator x = true ∧ d = Depth.ground
    · rw [pieces_cons_of_cut hx, pieces_cons_of_cut hx]
      rcases ih d with h | ⟨front, last, h₁, h₂⟩
      · exact Or.inl (by rw [h, List.cons_append])
      · exact Or.inr ⟨[] :: front, last, by rw [h₁, List.cons_append],
          by rw [h₂, List.cons_append]⟩
    · rw [pieces_cons_of_not_cut hx, pieces_cons_of_not_cut hx]
      rcases ih (d.after x) with h | ⟨front, last, h₁, h₂⟩
      · rw [h]
        cases hp : pieces (d.after x) t with
        | nil => exact absurd hp (pieces_ne_nil _ _)
        | cons p ps => exact Or.inl rfl
      · rw [h₁, h₂]
        -- the head of the pieces is the last one exactly when nothing is in front of it
        cases front with
        | nil => exact Or.inr ⟨[], x :: last, rfl, rfl⟩
        | cons p ps => exact Or.inr ⟨(x :: p) :: ps, last, rfl, rfl⟩

/-! ## Units of texts put together -/

/-- A balanced part in front of a separator is split by itself. -/
theorem splitSelections_append {a : Text} (ha : Balanced a) {sep : Char}
    (hs : isSeparator sep = true) (b : Text) :
    splitSelections (a ++ sep :: b) = splitSelections a ++ splitSelections b := by
  rw [splitSelections, pieces_append_separator (ha.afterAll _) hs, List.map_append,
    List.filter_append]
  rfl

/-- A text without a cut is its own single unit. -/
theorem splitSelections_of_pieces {t : Text} (hp : pieces Depth.ground t = [t])
    (ht : Text.IsTight t) : splitSelections t = [t] := by
  rw [splitSelections, hp, List.map_singleton, Text.trim_of_isTight ht, List.filter_cons_of_pos]
  · rfl
  · simpa using ht.ne_nil

/-- A blank is no bracket. -/
theorem Depth.after_blank (d : Depth) {c : Char} (h : Text.isBlank c = true) : d.after c = d := by
  have hb : ∀ x : Char, Text.isBlank x = false → c ≠ x := by
    rintro x hx rfl
    rw [h] at hx
    exact Bool.false_ne_true hx.symm
  rw [after, if_neg (hb _ (by decide)), if_neg (hb _ (by decide)), if_neg (hb _ (by decide)),
    if_neg (hb _ (by decide))]

/-- A blank in front of a body makes no difference. -/
theorem splitSelections_cons_blank {c : Char} (hc : Text.isBlank c = true) (t : Text) :
    splitSelections (c :: t) = splitSelections t := by
  rw [splitSelections, splitSelections]
  by_cases hs : isSeparator c = true ∧ Depth.ground = Depth.ground
  · -- a newline is a blank and a cut; the piece in front of it is empty and left out
    rw [pieces_cons_of_cut hs]
    rfl
  · rw [pieces_cons_of_not_cut hs, Depth.after_blank _ hc]
    cases hp : pieces Depth.ground t with
    | nil => rfl
    | cons p ps =>
      rw [List.modifyHead_cons, List.map_cons, List.map_cons, Text.trim_cons hc]

/-- A blank behind a body makes no difference. -/
theorem splitSelections_concat_blank {c : Char} (hc : Text.isBlank c = true) (t : Text) :
    splitSelections (t ++ [c]) = splitSelections t := by
  rw [splitSelections, splitSelections]
  rcases pieces_concat Depth.ground t c with h | ⟨front, last, h₁, h₂⟩
  · rw [h, List.map_append, List.filter_append]
    exact List.append_nil _
  · rw [h₁, h₂, List.map_append, List.map_append, List.map_singleton, List.map_singleton,
      Text.trim_concat hc]

theorem splitSelections_append_blank (t : Text) {w : Text} (hw : Text.IsBlank w) :
    splitSelections (t ++ w) = splitSelections t := by
  induction w generalizing t with
  | nil => rw [List.append_nil]
  | cons c w ih =>
    rw [List.append_cons, ih _ fun d hd => hw d (List.mem_cons_of_mem _ hd),
      splitSelections_concat_blank (hw c List.mem_cons_self)]

/-- Trimming a body makes no difference to its units. -/
theorem splitSelections_trim (t : Text) : splitSelections (Text.trim t) = splitSelections t := by
  have hstart : splitSelections (Text.trimStart t) = splitSelections t := by
    induction t with
    | nil => rfl
    | cons c t ih =>
      rw [Text.trimStart_cons]
      by_cases hc : Text.isBlank c = true
      · rw [if_pos hc, splitSelections_cons_blank hc, ih]
      · rw [if_neg hc]
  obtain ⟨w, hw, h⟩ := Text.exists_trimEnd_append (Text.trimStart t)
  calc splitSelections (Text.trim t)
      = splitSelections (Text.trim t ++ w) := (splitSelections_append_blank _ hw).symm
    _ = splitSelections (Text.trimStart t) := congrArg splitSelections h.symm
    _ = splitSelections t := hstart

end ForgeQuery
