import ForgeQuery.Proofs.Splitting
import Mathlib.Data.List.Basic

/-!
# Where a body is cut

The splitter goes through a body once and counts brackets on its way. What it comes to can be said
of each position by itself: a position is a cut when a separator stands there and, in the text in
front of it, as many brackets of each kind are opened as closed (`IsCut`). The units are what stands
between consecutive cuts, trimmed, and what trims to nothing is left out
(`units_stand_between_cuts`). Nothing is asked of the brackets of the body: the counts may differ
anywhere, and come to agree again.

Hence the units hold every character of the body that is no blank and stands at no cut, once and in
its order.
-/

namespace ForgeQuery

/-! ## Cuts -/

instance (t : Text) : Decidable (Balanced t) :=
  decidable_of_iff (t.count '{' = t.count '}' ∧ t.count '(' = t.count ')')
    ⟨fun h => ⟨h.1, h.2⟩, fun h => ⟨h.braces, h.parens⟩⟩

/-- The body is cut at this position. -/
structure IsCut (body : Text) (i : Nat) : Prop where
  /-- a comma or a newline stands there -/
  separator : body[i]? = some ',' ∨ body[i]? = some '\n'
  /-- in front of it as many brackets of each kind are opened as closed -/
  balanced : Balanced (body.take i)

instance (body : Text) (i : Nat) : Decidable (IsCut body i) :=
  decidable_of_iff ((body[i]? = some ',' ∨ body[i]? = some '\n') ∧ Balanced (body.take i))
    ⟨fun h => ⟨h.1, h.2⟩, fun h => ⟨h.separator, h.balanced⟩⟩

/-- The positions at which a body is cut, from left to right. -/
def cutPositions (body : Text) : List Nat := (List.range body.length).filter (IsCut body)

/-- What a body holds from `start` on between the given positions. The characters at the positions
belong to no piece. -/
def piecesBetween (body : Text) (start : Nat) : List Nat → List Text
  | [] => [body.drop start]
  | i :: rest => (body.take i).drop start :: piecesBetween body (i + 1) rest

/-- The characters of a body that stand at no cut, in their order. -/
def outsideCuts (body : Text) : Text := (body.zipIdx.filter fun e => ¬ IsCut body e.2).map Prod.fst

/-! ## Cuts of a text that begins inside brackets -/

/-- The position is a cut when the text begins at depth `d`. -/
def CutAt (d : Depth) (t : Text) (i : Nat) : Prop :=
  t[i]?.any isSeparator = true ∧ d.afterAll (t.take i) = Depth.ground

instance (d : Depth) (t : Text) (i : Nat) : Decidable (CutAt d t i) :=
  inferInstanceAs (Decidable (_ ∧ _))

theorem afterAll_ground_iff {t : Text} :
    Depth.ground.afterAll t = Depth.ground ↔ Balanced t := by
  constructor
  · intro h
    have hbraces := congrArg Depth.braces h
    have hparens := congrArg Depth.parens h
    rw [Depth.afterAll_eq] at hbraces hparens
    simp only [Depth.ground] at hbraces hparens
    exact ⟨by omega, by omega⟩
  · exact fun h => h.afterAll _

theorem isCut_iff {body : Text} {i : Nat} : IsCut body i ↔ CutAt Depth.ground body i := by
  have hseparator : body[i]?.any isSeparator = true ↔
      body[i]? = some ',' ∨ body[i]? = some '\n' := by
    cases body[i]? <;> simp [isSeparator]
  rw [CutAt, afterAll_ground_iff, hseparator]
  exact ⟨fun h => ⟨h.separator, h.balanced⟩, fun h => ⟨h.1, h.2⟩⟩

variable (d : Depth) (c : Char) (t : Text)

@[simp] theorem cutAt_zero : CutAt d (c :: t) 0 ↔ isSeparator c = true ∧ d = Depth.ground := by
  simp [CutAt]

@[simp] theorem cutAt_succ (i : Nat) : CutAt d (c :: t) (i + 1) ↔ CutAt (d.after c) t i := by
  simp [CutAt]

/-- The positions of the cuts when the text begins at depth `d`. -/
def cutsFrom : List Nat := (List.range t.length).filter (CutAt d t)

/-- Behind its first character a text has the cuts of its rest, one place further on. -/
theorem cutsFrom_cons :
    cutsFrom d (c :: t)
      = if isSeparator c = true ∧ d = Depth.ground then
          0 :: (cutsFrom (d.after c) t).map (· + 1)
        else (cutsFrom (d.after c) t).map (· + 1) := by
  have hrest : ((List.range t.length).map (· + 1)).filter (CutAt d (c :: t))
      = (cutsFrom (d.after c) t).map (· + 1) := by
    rw [List.filter_map, cutsFrom]
    simp only [Function.comp_def, cutAt_succ]
  rw [cutsFrom, List.length_cons, List.range_succ_eq_map, List.filter_cons, hrest]
  simp only [cutAt_zero, decide_eq_true_eq]

/-- Positions that are all moved by one give what they did behind the first character. -/
theorem piecesBetween_cons (start : Nat) (cuts : List Nat) :
    piecesBetween (c :: t) (start + 1) (cuts.map (· + 1)) = piecesBetween t start cuts := by
  induction cuts generalizing start with
  | nil => rfl
  | cons i rest ih => simp [piecesBetween, ih]

/-- The first character belongs to the first piece if no position is in front of it. -/
theorem piecesBetween_cons_zero (cuts : List Nat) :
    piecesBetween (c :: t) 0 (cuts.map (· + 1)) = (piecesBetween t 0 cuts).modifyHead (c :: ·) := by
  cases cuts with
  | nil => rfl
  | cons i rest => simp [piecesBetween, piecesBetween_cons]

/-- **The pieces of a text stand between its cuts.** -/
theorem pieces_eq_piecesBetween : pieces d t = piecesBetween t 0 (cutsFrom d t) := by
  induction t generalizing d with
  | nil => rfl
  | cons c t ih =>
    rw [cutsFrom_cons]
    by_cases hc : isSeparator c = true ∧ d = Depth.ground
    · -- nothing is in front of the cut, and behind it the depth is what it was
      rw [pieces_cons_of_cut hc, if_pos hc, d.after_separator hc.1, ih, piecesBetween,
        piecesBetween_cons]
      rfl
    · rw [pieces_cons_of_not_cut hc, if_neg hc, ih, piecesBetween_cons_zero]

/-- The pieces hold every character of a text that stands at no cut. -/
theorem flatten_pieces :
    (pieces d t).flatten = (t.zipIdx.filter fun e => ¬ CutAt d t e.2).map Prod.fst := by
  induction t generalizing d with
  | nil => rfl
  | cons c t ih =>
    have hrest : ((t.zipIdx 1).filter fun e => ¬ CutAt d (c :: t) e.2).map Prod.fst
        = (pieces (d.after c) t).flatten := by
      rw [ih, List.zipIdx_succ, List.filter_map, List.map_map]
      simp only [Function.comp_def, cutAt_succ]
    have hzero : decide (¬ CutAt d (c :: t) 0) = true ↔
        ¬ (isSeparator c = true ∧ d = Depth.ground) := by
      rw [decide_eq_true_eq, cutAt_zero]
    rw [List.zipIdx_cons, List.filter_cons]
    by_cases hc : isSeparator c = true ∧ d = Depth.ground
    · rw [pieces_cons_of_cut hc, if_neg fun h => hzero.mp h hc, hrest, d.after_separator hc.1]
      rfl
    · obtain ⟨p, ps, hp⟩ := List.exists_cons_of_ne_nil (pieces_ne_nil (d.after c) t)
      rw [pieces_cons_of_not_cut hc, if_pos (hzero.mpr hc), List.map_cons, hrest, hp]
      rfl

/-! ## Units -/

/-- Trimming and leaving out what is empty loses nothing but blanks. -/
theorem filter_flatten_units (ps : List Text) :
    ((ps.map Text.trim).filter fun unit => !unit.isEmpty).flatten.filter (fun c => !Text.isBlank c)
      = ps.flatten.filter fun c => !Text.isBlank c := by
  induction ps with
  | nil => rfl
  | cons p ps ih =>
    have hp := Text.filter_trim (p := fun c => !Text.isBlank c) (by simp) p
    rw [List.map_cons, List.flatten_cons, List.filter_append, ← ih, ← hp]
    cases Text.trim p with
    | nil => rfl
    | cons c unit =>
      rw [List.filter_cons_of_pos rfl, List.flatten_cons, List.filter_append]

/-- **The units of a body stand between its cuts.** They are the pieces between consecutive cuts,
trimmed, without those that trim to nothing; and a character that is no blank is in them just when
it stands at no cut, once and in its order. -/
theorem units_stand_between_cuts (body : Text) :
    splitSelections body
        = ((piecesBetween body 0 (cutPositions body)).map Text.trim).filter
            (fun unit => !unit.isEmpty) ∧
      (splitSelections body).flatten.filter (fun c => !Text.isBlank c)
        = (outsideCuts body).filter fun c => !Text.isBlank c := by
  constructor
  · have hcuts : cutPositions body = cutsFrom Depth.ground body := by
      simp only [cutPositions, cutsFrom, isCut_iff]
    rw [hcuts, ← pieces_eq_piecesBetween]
    rfl
  · have houtside : outsideCuts body = (pieces Depth.ground body).flatten := by
      rw [flatten_pieces]
      simp only [outsideCuts, isCut_iff]
    rw [houtside]
    exact filter_flatten_units _

/-- Splitting stops at a stray brace and goes on when another makes up for it. -/
example : cutPositions "a \x7d, b \x7b, c\n(d,\n), e".toList = [8, 11, 17] := by decide

end ForgeQuery
