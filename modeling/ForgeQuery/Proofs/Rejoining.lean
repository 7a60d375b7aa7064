import ForgeQuery.Proofs.CutPositions
import ForgeQuery.Proofs.Units

/-!
# Splitting again and joining again

Splitting a body is stable (`splitting_is_stable`). A unit is split into itself; the units can be
joined by any separators, with any blanks around them, and are split as before; and a body can be
split in two halves at any separator that has a balanced text in front of it.

Only the last unit of a body may have brackets that do not balance
(`balanced_of_mem_dropLast_splitSelections`): every other one ends at a cut, and the one in front of
it ended at a cut too, so that the counts agree at both of its ends. What trimming takes off the two
ends holds no bracket and does not matter here. For the last unit it matters that what has been
trimmed off may hold separators; these were no cuts, and they are no longer there.
-/

namespace ForgeQuery

/-! ## Brackets and blanks -/

namespace Text

/-- Trimming takes only blanks away. -/
theorem count_trim {c : Char} (hc : isBlank c = false) (t : Text) :
    (trim t).count c = t.count c := by
  have hcount (u : Text) : (u.filter fun d => !isBlank d).count c = u.count c :=
    List.count_filter (by simp [hc])
  rw [← hcount, filter_trim (by simp), hcount]

/-- Blanks are no brackets. -/
theorem IsBlank.balanced {w : Text} (h : IsBlank w) : Balanced w := by
  have hzero {c : Char} (hc : isBlank c = false) : w.count c = 0 := by
    rw [List.count_eq_zero]
    intro hmem
    rw [h c hmem] at hc
    cases hc
  constructor
  · rw [hzero (by decide), hzero (by decide)]
  · rw [hzero (by decide), hzero (by decide)]

end Text

theorem Balanced.trim {t : Text} (h : Balanced t) : Balanced (Text.trim t) := by
  constructor
  · rw [Text.count_trim (by decide), Text.count_trim (by decide), h.braces]
  · rw [Text.count_trim (by decide), Text.count_trim (by decide), h.parens]

theorem splitSelections_blank_append {w : Text} (hw : Text.IsBlank w) (t : Text) :
    splitSelections (w ++ t) = splitSelections t := by
  induction w with
  | nil => rfl
  | cons c w ih =>
    rw [List.cons_append, splitSelections_cons_blank (hw c List.mem_cons_self),
      ih fun d hd => hw d (List.mem_cons_of_mem c hd)]

/-! ## Units that do not come last -/

/-- A text has no cut, or it has a first one. -/
theorem exists_first_cut (d : Depth) (t : Text) :
    pieces d t = [t] ∨ ∃ a sep b, t = a ++ sep :: b ∧ isSeparator sep = true ∧
      d.afterAll a = Depth.ground ∧ pieces d a = [a] := by
  induction t generalizing d with
  | nil => exact Or.inl rfl
  | cons c t ih =>
    by_cases hc : isSeparator c = true ∧ d = Depth.ground
    · exact Or.inr ⟨[], c, t, rfl, hc.1, hc.2, rfl⟩
    · rcases ih (d.after c) with h | ⟨a, sep, b, rfl, hsep, hground, hsingle⟩
      · left
        rw [pieces_cons_of_not_cut hc, h, List.modifyHead_cons]
      · refine Or.inr ⟨c :: a, sep, b, rfl, hsep, hground, ?_⟩
        rw [pieces_cons_of_not_cut hc, hsingle, List.modifyHead_cons]

/-- A piece that ends at a cut is balanced. -/
theorem balanced_of_mem_dropLast_pieces {t p : Text}
    (h : p ∈ (pieces Depth.ground t).dropLast) : Balanced p := by
  induction hn : t.length using Nat.strongRecOn generalizing t with
  | ind n ih =>
    rcases exists_first_cut Depth.ground t with hsingle | ⟨a, sep, b, rfl, hsep, hground, hsingle⟩
    · rw [hsingle] at h
      exact absurd h List.not_mem_nil
    · rw [pieces_append_separator hground hsep, hsingle, List.singleton_append,
        List.dropLast_cons_of_ne_nil (pieces_ne_nil _ _)] at h
      rcases List.mem_cons.mp h with rfl | h
      · exact afterAll_ground_iff.mp hground
      · refine ih b.length ?_ h rfl
        rw [← hn, List.length_append, List.length_cons]
        omega

/-- What is left of a list by a filter, but for the last of it, comes from what is not last. -/
theorem mem_dropLast_of_filter {α : Type} {p : α → Bool} {l : List α} {x : α}
    (h : x ∈ (l.filter p).dropLast) : x ∈ l.dropLast := by
  rcases List.eq_nil_or_concat l with rfl | ⟨front, last, rfl⟩
  · exact h
  · rw [List.concat_eq_append, List.filter_append] at h
    rw [List.concat_eq_append, List.dropLast_concat]
    cases hlast : p last with
    | true =>
      rw [List.filter_cons_of_pos hlast, List.filter_nil, List.dropLast_concat] at h
      exact (List.mem_filter.mp h).1
    | false =>
      rw [List.filter_cons_of_neg (by simp [hlast]), List.filter_nil, List.append_nil] at h
      exact (List.mem_filter.mp (List.dropLast_subset _ h)).1

/-- **Every unit but the last one is balanced.** -/
theorem balanced_of_mem_dropLast_splitSelections {body unit : Text}
    (h : unit ∈ (splitSelections body).dropLast) : Balanced unit := by
  have hunit := mem_dropLast_of_filter h
  rw [← List.map_dropLast] at hunit
  obtain ⟨p, hp, rfl⟩ := List.mem_map.mp hunit
  exact (balanced_of_mem_dropLast_pieces hp).trim

/-! ## Joining units -/

/-- What can stand between two units that are joined: a separator with blanks on both sides. -/
structure Joint where
  /-- the blanks in front of the separator -/
  front : Text
  /-- the separator -/
  separator : Char
  /-- the blanks behind the separator -/
  back : Text
  /-- blanks stand in front -/
  front_isBlank : Text.IsBlank front
  /-- the separator is a comma or a newline -/
  isSeparator_separator : isSeparator separator = true
  /-- blanks stand behind -/
  back_isBlank : Text.IsBlank back

/-- The text of a joint. -/
def Joint.text (j : Joint) : Text := j.front ++ j.separator :: j.back

/-- A joint behind a balanced text cuts it off. -/
theorem Joint.splitSelections_append (j : Joint) {a : Text} (ha : Balanced a) (b : Text) :
    splitSelections (a ++ (j.text ++ b)) = splitSelections a ++ splitSelections b := by
  have htext : a ++ (j.text ++ b) = (a ++ j.front) ++ j.separator :: (j.back ++ b) := by
    rw [text, List.append_assoc, List.append_assoc, List.cons_append]
  rw [htext, ForgeQuery.splitSelections_append (ha.append j.front_isBlank.balanced)
    j.isSeparator_separator, splitSelections_append_blank a j.front_isBlank,
    splitSelections_blank_append j.back_isBlank]

/-- Units one after the other, with a joint between each two of them. -/
def rejoined (joint : Nat → Joint) : List Text → Text
  | [] => []
  | [u] => u
  | u :: v :: rest => u ++ ((joint 0).text ++ rejoined (fun n => joint (n + 1)) (v :: rest))

/-- Texts are split one by one where they were joined, if all but the last one are balanced. -/
theorem splitSelections_rejoined_eq_flatMap (joint : Nat → Joint) {texts : List Text}
    (hbalanced : ∀ t ∈ texts.dropLast, Balanced t) :
    splitSelections (rejoined joint texts) = texts.flatMap splitSelections := by
  induction texts generalizing joint with
  | nil => rfl
  | cons t rest ih =>
    cases rest with
    | nil => exact (List.append_nil _).symm
    | cons u rest =>
      rw [List.dropLast_cons_cons] at hbalanced
      obtain ⟨ht, hrest⟩ := List.forall_mem_cons.mp hbalanced
      rw [rejoined, (joint 0).splitSelections_append ht, ih _ hrest]
      rfl

/-- Units are split where they were joined. -/
theorem splitSelections_rejoined (joint : Nat → Joint) {units : List Text}
    (hsingle : ∀ u ∈ units, splitSelections u = [u]) (hbalanced : ∀ u ∈ units.dropLast, Balanced u) :
    splitSelections (rejoined joint units) = units := by
  rw [splitSelections_rejoined_eq_flatMap joint hbalanced, List.flatMap_congr hsingle,
    List.flatMap_singleton']

/-! ## Stability -/

/-- **Splitting is stable.** Every unit of a body is its own single unit, and every one but the last
is balanced; joined by any separators, with blanks around them and around the whole, the units are
split as before; and a balanced text in front of a separator is split by itself, whatever stands
behind it. -/
theorem splitting_is_stable (body : Text) :
    (∀ unit ∈ splitSelections body, splitSelections unit = [unit]) ∧
      (∀ unit ∈ (splitSelections body).dropLast, Balanced unit) ∧
      (∀ (joint : Nat → Joint) (v w : Text), Text.IsBlank v → Text.IsBlank w →
        splitSelections (v ++ (rejoined joint (splitSelections body) ++ w))
          = splitSelections body) ∧
      ∀ (a b : Text) (sep : Char), Balanced a → isSeparator sep = true →
        splitSelections (a ++ sep :: b) = splitSelections a ++ splitSelections b := by
  have hsingle : ∀ unit ∈ splitSelections body, splitSelections unit = [unit] :=
    fun unit => splitSelections_of_mem
  have hbalanced : ∀ unit ∈ (splitSelections body).dropLast, Balanced unit :=
    fun unit => balanced_of_mem_dropLast_splitSelections
  refine ⟨hsingle, hbalanced, ?_, ?_⟩
  · intro joint v w hv hw
    rw [splitSelections_blank_append hv, splitSelections_append_blank _ hw,
      splitSelections_rejoined joint hsingle hbalanced]
  · intro a b sep ha hsep
    exact splitSelections_append ha hsep b

/-- A body whose last unit closes what it has not opened and ends in separators: its units are
joined by newlines among spaces, and another body is cut at a brace that makes up for a stray one. -/
theorem unbalanced_units_are_joined :
    let body := "a \x7b x,\n y \x7d,, b \x7d (,\n\n".toList
    let a := "c \x7d, \x7b".toList
    let joint : Joint := ⟨[' '], '\n', [' ', '\n'], by decide, by decide, by decide⟩
    splitSelections body = ["a \x7b x,\n y \x7d".toList, "b \x7d (,".toList] ∧
      rejoined (fun _ => joint) (splitSelections body)
        = "a \x7b x,\n y \x7d \n \nb \x7d (,".toList ∧
      splitSelections (rejoined (fun _ => joint) (splitSelections body) ++ [' '])
        = splitSelections body ∧
      Balanced a ∧ splitSelections (a ++ ',' :: body) = splitSelections a ++ splitSelections body := by
  intro body a joint
  obtain ⟨-, -, hjoined, hcut⟩ := splitting_is_stable body
  exact ⟨by decide, by decide, hjoined (fun _ => joint) [] [' '] (by decide) (by decide), by decide,
    hcut a body ',' (by decide) (by decide)⟩

end ForgeQuery
