import ForgeQuery.Text.Blank

/-!
# Cutting out a nested selection

An item of a sub-selection may carry a nested selection of its own, which is never looked into.
What is cut out is the stretch from an opening brace through the last closing brace of the same
line. An opening brace without a closing one behind it on its line is left alone and the next one
is tried; only one stretch is ever cut.
-/

namespace ForgeQuery

/-- The characters that end a line: line feed, carriage return, and the two separators `U+2028` and
`U+2029`. -/
def isLineEnd (c : Char) : Bool :=
  c == '\n' || c == '\r' || c == '\u2028' || c == '\u2029'

/-- What follows the last closing brace of the line at the start of the text, if there is one. -/
def afterLastClose? : Text → Option Text
  | [] => none
  | c :: rest =>
    if isLineEnd c then none
    else
      match afterLastClose? rest with
      | some after => some after
      | none => if c = '}' then some rest else none

/-- The text without its first nested selection. -/
def cutNested : Text → Text
  | [] => []
  | c :: rest =>
    if c = '{' then
      match afterLastClose? rest with
      | some after => after
      | none => c :: cutNested rest
    else c :: cutNested rest

/-- What is in front of the first opening brace is left as it is. -/
theorem cutNested_append {front : Text} (h : '{' ∉ front) (t : Text) :
    cutNested (front ++ t) = front ++ cutNested t := by
  induction front with
  | nil => rfl
  | cons c front ih =>
    have hc : ¬ c = '{' := fun he => h (he ▸ List.mem_cons_self)
    rw [List.cons_append, cutNested, if_neg hc, ih fun hm => h (List.mem_cons_of_mem _ hm),
      List.cons_append]

/-- The text is empty or goes on with the end of a line. -/
def StopsLine (t : Text) : Prop := ∀ c rest, t = c :: rest → isLineEnd c = true

theorem stopsLine_nil : StopsLine [] := nofun

theorem stopsLine_cons {e : Char} (he : isLineEnd e = true) (t : Text) : StopsLine (e :: t) := by
  intro c rest h
  rwa [(List.cons.inj h).1] at he

/-- Without a closing brace before the end of the line there is none to be found. -/
theorem afterLastClose?_eq_none {line rest : Text} (hline : '}' ∉ line) (hrest : StopsLine rest) :
    afterLastClose? (line ++ rest) = none := by
  induction line with
  | nil =>
    cases rest with
    | nil => rfl
    | cons c rest => rw [List.nil_append, afterLastClose?, if_pos (hrest c rest rfl)]
  | cons c line ih =>
    rw [List.mem_cons, not_or] at hline
    rw [List.cons_append, afterLastClose?, ih hline.2]
    by_cases hc : isLineEnd c = true
    · rw [if_pos hc]
    · rw [if_neg hc, if_neg (Ne.symm hline.1)]

/-- The last closing brace of a line is found, whatever closing braces are in front of it. -/
theorem afterLastClose?_eq_some {inner back rest : Text} (hinner : ∀ c ∈ inner, isLineEnd c = false)
    (hback : '}' ∉ back) (hrest : StopsLine rest) :
    afterLastClose? (inner ++ '}' :: (back ++ rest)) = some (back ++ rest) := by
  induction inner with
  | nil =>
    rw [List.nil_append, afterLastClose?, if_neg (by decide), afterLastClose?_eq_none hback hrest]
    rfl
  | cons c inner ih =>
    obtain ⟨hc, hinner⟩ := List.forall_mem_cons.mp hinner
    rw [List.cons_append, afterLastClose?, if_neg (Bool.eq_false_iff.mp hc), ih hinner]

/-- What stands between the first opening brace and the last closing brace of a line is cut out with
the braces. -/
theorem cutNested_between {front inner back rest : Text} (hfront : '{' ∉ front)
    (hinner : ∀ c ∈ inner, isLineEnd c = false) (hback : '}' ∉ back) (hrest : StopsLine rest) :
    cutNested (front ++ '{' :: (inner ++ '}' :: (back ++ rest))) = front ++ (back ++ rest) := by
  rw [cutNested_append hfront, cutNested, if_pos rfl, afterLastClose?_eq_some hinner hback hrest]

/-- Braces at the end of a text are cut out with what they enclose, if it is on one line. -/
theorem cutNested_braced {front inner : Text} (hfront : '{' ∉ front)
    (hinner : ∀ c ∈ inner, isLineEnd c = false) :
    cutNested (front ++ '{' :: (inner ++ ['}'])) = front := by
  have hcut := cutNested_between hfront hinner List.not_mem_nil stopsLine_nil
  rwa [List.append_nil, List.append_nil] at hcut

end ForgeQuery
