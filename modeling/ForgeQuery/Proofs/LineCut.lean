import ForgeQuery.Query.NestedCut

/-!
# Cutting line by line

The cut of a nested selection tries one opening brace of the text after the other, and looks for a
closing brace up to the end of the line each time. What comes of it is told line by line: nothing
happens to a text in which no line has a closing brace behind an opening one. In any other text the
first such line loses what stands from its first opening brace through its last closing one, and all
else is kept (`nested_selections_are_cut_line_by_line`).

An opening brace that finds no closing one settles that none behind it on its line does, so a line
is passed over as a whole or cut, and the cut begins at its first opening brace
(`cutNested_of_flat`, `cutNested_between`). The texts are taken apart by their first line
(`lines_induction`).
-/

namespace ForgeQuery

/-! ## Lines -/

/-- The characters between the lines of a text. -/
def lineTerminators : List Char := ['\n', '\r', '\u2028', '\u2029']

theorem contains_lineTerminators : lineTerminators.contains = isLineEnd := by
  funext c
  rw [Bool.eq_iff_iff]
  simp [lineTerminators, isLineEnd, or_assoc]

/-- The lines of a text, without the characters that end them. -/
def lines (t : Text) : List Text := t.splitOnP lineTerminators.contains

/-- The characters that end the lines of a text, in order. -/
def lineEnds (t : Text) : List Char := t.filter lineTerminators.contains

/-- The text with the given lines, all but the last of which end with the given characters. -/
def joinLines (ls : List Text) (ends : List Char) : Text :=
  (List.zipWith (· ++ ·) ls (ends.map ([·]) ++ [[]])).flatten

/-- A text is its lines with what ends them. -/
theorem joinLines_lines (t : Text) : joinLines (lines t) (lineEnds t) = t :=
  List.splitOnP_spec t

@[simp] theorem joinLines_singleton (line : Text) : joinLines [line] [] = line := by
  simp [joinLines]

@[simp] theorem joinLines_cons (line : Text) (ls : List Text) (e : Char) (ends : List Char) :
    joinLines (line :: ls) (e :: ends) = line ++ e :: joinLines ls ends := by
  simp [joinLines]

/-- No character of the text ends a line. -/
def OnOneLine (t : Text) : Prop := ∀ c ∈ t, isLineEnd c = false

section

variable {line : Text} (h : OnOneLine line)

include h

theorem lines_of_onOneLine : lines line = [line] := by
  rw [lines, contains_lineTerminators]
  exact List.splitOnP_eq_singleton h

theorem lineEnds_of_onOneLine : lineEnds line = [] := by
  rw [lineEnds, contains_lineTerminators]
  exact List.filter_eq_nil_iff.mpr fun c hc => Bool.eq_false_iff.mp (h c hc)

theorem lines_append {e : Char} (he : isLineEnd e = true) (t : Text) :
    lines (line ++ e :: t) = line :: lines t := by
  rw [lines, lines, contains_lineTerminators]
  exact List.splitOnP_append_cons_of_forall_mem h e he t

theorem lineEnds_append {e : Char} (he : isLineEnd e = true) (t : Text) :
    lineEnds (line ++ e :: t) = e :: lineEnds t := by
  have hline := lineEnds_of_onOneLine h
  rw [← contains_lineTerminators] at he
  rw [lineEnds] at hline
  rw [lineEnds, List.filter_append, hline, List.nil_append, List.filter_cons_of_pos he, lineEnds]

end

/-- What holds of a single line, and of a line with a text behind it of which it holds, holds of
every text. -/
theorem lines_induction {P : Text → Prop} (last : ∀ line, OnOneLine line → P line)
    (next : ∀ line e t, OnOneLine line → isLineEnd e = true → P t → P (line ++ e :: t)) (t : Text) :
    P t := by
  suffices h : ∀ line, OnOneLine line → P (line ++ t) from h [] (List.forall_mem_nil _)
  induction t with
  | nil =>
    intro line hline
    rw [List.append_nil]
    exact last line hline
  | cons c t ih =>
    intro line hline
    by_cases hc : isLineEnd c = true
    · exact next line c t hline hc (ih [] (List.forall_mem_nil _))
    · -- the character belongs to the line that has been begun
      rw [List.append_cons]
      refine ih (line ++ [c]) fun d hd => ?_
      rcases List.mem_append.mp hd with hd | hd
      · exact hline d hd
      · rw [List.mem_singleton.mp hd]
        exact Bool.eq_false_iff.mpr hc

/-! ## Nested selections on a line -/

/-- Somewhere behind an opening brace stands a closing one. -/
def HasNested (line : Text) : Prop := ['{', '}'].Sublist line

instance (line : Text) : Decidable (HasNested line) := inferInstanceAs (Decidable (List.Sublist _ _))

/-- Behind the first opening brace of such a line stands a closing one. -/
theorem HasNested.mem_behind {front rest : Text} (h : HasNested (front ++ '{' :: rest))
    (hfront : '{' ∉ front) : '}' ∈ rest := by
  induction front with
  | nil => rwa [HasNested, List.nil_append, List.cons_sublist_cons, List.singleton_sublist] at h
  | cons c front ih =>
    rw [List.mem_cons, not_or] at hfront
    rcases List.sublist_cons_iff.mp h with h | ⟨r, hr, -⟩
    · exact ih h hfront.2
    · exact absurd (List.cons.inj hr).1 hfront.1

/-- Such a line has a first opening brace and, behind it, a last closing one. -/
theorem HasNested.exists_eq {line : Text} (h : HasNested line) :
    ∃ front inner back, line = front ++ '{' :: (inner ++ '}' :: back) ∧ '{' ∉ front ∧
      '}' ∉ back := by
  obtain ⟨front, rest, rfl, hfront⟩ := List.eq_append_cons_of_mem (h.subset List.mem_cons_self)
  have hclose : '}' ∈ rest.reverse := List.mem_reverse.mpr (h.mem_behind hfront)
  obtain ⟨back, inner, hrest, hback⟩ := List.eq_append_cons_of_mem hclose
  refine ⟨front, inner.reverse, back.reverse, ?_, hfront, mt List.mem_reverse.mp hback⟩
  rw [← List.reverse_reverse rest, hrest, List.reverse_append, List.reverse_cons,
    List.append_assoc, List.singleton_append]

/-- A line without one is passed over, whatever stands on the lines behind it. -/
theorem cutNested_of_flat {line rest : Text} (hline : ¬ HasNested line) (hrest : StopsLine rest) :
    cutNested (line ++ rest) = line ++ cutNested rest := by
  induction line with
  | nil => rfl
  | cons c line ih =>
    have hbehind : ¬ HasNested line := fun h => hline (h.trans (List.sublist_cons_self c line))
    rw [List.cons_append, cutNested, List.cons_append, ih hbehind]
    by_cases hc : c = '{'
    · have hclose : '}' ∉ line := by
        rw [hc, HasNested, List.cons_sublist_cons, List.singleton_sublist] at hline
        exact hline
      rw [if_pos hc, afterLastClose?_eq_none hclose hrest]
    · rw [if_neg hc]

/-! ## The cut -/

/-- This is what a text becomes if its first line with a nested selection is cut. -/
inductive CutsTo (t : Text) : Text → Prop where
  /-- there is no such line -/
  | unchanged (flat : ∀ line ∈ lines t, ¬ HasNested line) : CutsTo t t
  /-- the line loses what stands from its first opening through its last closing brace -/
  | cut {before behind : List Text} {front inner back : Text}
      (split : lines t = before ++ (front ++ '{' :: (inner ++ '}' :: back)) :: behind)
      (flat : ∀ line ∈ before, ¬ HasNested line) (isFirst : '{' ∉ front) (isLast : '}' ∉ back) :
      CutsTo t (joinLines (before ++ (front ++ back) :: behind) (lineEnds t))

/-- It may be the very first line that is cut. -/
theorem CutsTo.of_first {t front inner back : Text} {behind : List Text}
    (split : lines t = (front ++ '{' :: (inner ++ '}' :: back)) :: behind) (isFirst : '{' ∉ front)
    (isLast : '}' ∉ back) : CutsTo t (joinLines ((front ++ back) :: behind) (lineEnds t)) := by
  have hsplit : lines t = [] ++ (front ++ '{' :: (inner ++ '}' :: back)) :: behind := split
  exact CutsTo.cut hsplit (List.forall_mem_nil _) isFirst isLast

/-- What a text becomes behind a line that is passed over is what the whole becomes. -/
theorem CutsTo.behind {line rest u : Text} {e : Char} (hline : OnOneLine line)
    (hflat : ¬ HasNested line) (he : isLineEnd e = true) (h : CutsTo rest u) :
    CutsTo (line ++ e :: rest) (line ++ e :: u) := by
  cases h with
  | unchanged flat =>
    refine .unchanged ?_
    rw [lines_append hline he]
    exact List.forall_mem_cons.mpr ⟨hflat, flat⟩
  | @cut before behind front inner back split flat isFirst isLast =>
    have hsplit : lines (line ++ e :: rest)
        = (line :: before) ++ (front ++ '{' :: (inner ++ '}' :: back)) :: behind := by
      rw [lines_append hline he, split, List.cons_append]
    have hcut := CutsTo.cut hsplit (List.forall_mem_cons.mpr ⟨hflat, flat⟩) isFirst isLast
    rwa [lineEnds_append hline he, List.cons_append, joinLines_cons] at hcut

theorem cutNested_lineEnd {e : Char} (he : isLineEnd e = true) (t : Text) :
    cutNested (e :: t) = e :: cutNested t := by
  have hne : ¬ e = '{' := by
    rintro rfl
    cases he
  rw [cutNested, if_neg hne]

/-- A line with a nested selection is cut, and nothing happens behind it. -/
theorem cutNested_of_nested {front inner back rest : Text}
    (hline : OnOneLine (front ++ '{' :: (inner ++ '}' :: back))) (hfront : '{' ∉ front)
    (hback : '}' ∉ back) (hrest : StopsLine rest) :
    cutNested (front ++ '{' :: (inner ++ '}' :: back) ++ rest) = front ++ back ++ rest := by
  have hinner : OnOneLine inner := fun c hc =>
    hline c (List.mem_append_right _ (List.mem_cons_of_mem _ (List.mem_append_left _ hc)))
  have hcut := cutNested_between hfront hinner hback hrest
  simpa only [List.append_assoc, List.cons_append] using hcut

/-- What a text becomes is what it becomes if its first line with a nested selection is cut. -/
theorem cutsTo_cutNested (t : Text) : CutsTo t (cutNested t) := by
  induction t using lines_induction with
  | last line hline =>
    by_cases h : HasNested line
    · obtain ⟨front, inner, back, rfl, hfront, hback⟩ := h.exists_eq
      have hcut := CutsTo.of_first (lines_of_onOneLine hline) hfront hback
      have heq := cutNested_of_nested hline hfront hback stopsLine_nil
      rw [lineEnds_of_onOneLine hline, joinLines_singleton] at hcut
      rw [List.append_nil, List.append_nil] at heq
      rwa [heq]
    · have heq := cutNested_of_flat h stopsLine_nil
      rw [cutNested, List.append_nil] at heq
      rw [heq]
      refine .unchanged ?_
      rw [lines_of_onOneLine hline]
      exact fun l hl => List.mem_singleton.mp hl ▸ h
  | next line e t hline he ih =>
    have hstop := stopsLine_cons he t
    by_cases h : HasNested line
    · obtain ⟨front, inner, back, rfl, hfront, hback⟩ := h.exists_eq
      have hcut := CutsTo.of_first (lines_append hline he t) hfront hback
      rw [lineEnds_append hline he, joinLines_cons, joinLines_lines] at hcut
      rwa [cutNested_of_nested hline hfront hback hstop]
    · rw [cutNested_of_flat h hstop, cutNested_lineEnd he]
      exact ih.behind hline h he

/-- It becomes nothing else. -/
theorem CutsTo.eq_cutNested {t u : Text} (h : CutsTo t u) : cutNested t = u := by
  induction t using lines_induction generalizing u with
  | last line hline =>
    have hlines := lines_of_onOneLine hline
    cases h with
    | unchanged flat =>
      have heq := cutNested_of_flat (flat line (hlines ▸ List.mem_cons_self)) stopsLine_nil
      rwa [cutNested, List.append_nil] at heq
    | @cut before behind front inner back split flat isFirst isLast =>
      rw [hlines] at split
      cases before with
      | nil =>
        obtain ⟨rfl, rfl⟩ := List.cons.inj split
        have heq := cutNested_of_nested hline isFirst isLast stopsLine_nil
        rw [List.append_nil, List.append_nil] at heq
        rw [heq, lineEnds_of_onOneLine hline, List.nil_append, joinLines_singleton]
      | cons l before => cases before <;> cases (List.cons.inj split).2
  | next line e t hline he ih =>
    have hlines := lines_append hline he t
    have hstop := stopsLine_cons he t
    cases h with
    | unchanged flat =>
      rw [hlines, List.forall_mem_cons] at flat
      rw [cutNested_of_flat flat.1 hstop, cutNested_lineEnd he, ih (.unchanged flat.2)]
    | @cut before behind front inner back split flat isFirst isLast =>
      rw [hlines] at split
      rw [lineEnds_append hline he]
      cases before with
      | nil =>
        obtain ⟨rfl, rfl⟩ := List.cons.inj split
        rw [cutNested_of_nested hline isFirst isLast hstop, List.nil_append, joinLines_cons,
          joinLines_lines]
      | cons l before =>
        obtain ⟨rfl, hbehind⟩ := List.cons.inj split
        rw [List.forall_mem_cons] at flat
        rw [cutNested_of_flat flat.1 hstop, cutNested_lineEnd he,
          ih (.cut hbehind flat.2 isFirst isLast), List.cons_append, joinLines_cons]

/-- **Nested selections are cut line by line.** A text is divided into lines, and nothing of it is
lost by that. It becomes exactly what it is when no line has a closing brace behind an opening one,
and else what is left when the first such line loses the stretch from its first opening brace
through its last closing one. -/
theorem nested_selections_are_cut_line_by_line (t : Text) :
    joinLines (lines t) (lineEnds t) = t ∧ ∀ u, cutNested t = u ↔ CutsTo t u :=
  ⟨joinLines_lines t, fun _ => ⟨fun h => h ▸ cutsTo_cutNested t, CutsTo.eq_cutNested⟩⟩

/-- A line on which the closing brace stands in front of the opening one is left alone, and so is
every line behind the one that is cut; of several pairs on that line the outermost are cut. -/
example :
    cutNested ['}', '{', '\n', 'a', '{', 'b', '{', '}', '}', 'c', '\r', '{', '}']
      = ['}', '{', '\n', 'a', 'c', '\r', '{', '}'] := by
  decide +kernel

end ForgeQuery
