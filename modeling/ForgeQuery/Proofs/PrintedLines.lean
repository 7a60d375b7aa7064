import ForgeQuery.Proofs.Layout
import Mathlib.Data.List.Forall2
import Mathlib.Data.List.ModifyLast

/-!
# The lines of an indented text

What a reader sees of an indented text is lines: a container opens on a line and closes on a line,
its parts stand between them two blanks deeper, and a comma ends every part but the last. `lines`
says so of a value alone, part by part and with no word on levels or line breaks. Each line of the
indented text is one of them (`indented_eq_lines`).
-/

namespace ForgeQuery

namespace Json

/-! ## Scalars -/

/-- The letters of the escapes that have one. -/
def escapeLetters : List (Char × Char) :=
  [('"', '"'), ('\\', '\\'), ('\x08', 'b'), ('\t', 't'), ('\n', 'n'), ('\x0c', 'f'), ('\r', 'r')]

/-- A character inside quotes: an escape with its letter, one with four hexadecimal digits for the
other control characters, or itself. -/
def quotedChar (c : Char) : Text :=
  match escapeLetters.lookup c with
  | some letter => ['\\', letter]
  | none => if c < ' ' then '\\' :: 'u' :: (Nat.toDigits 16 c.toNat).leftpad 4 '0' else [c]

/-- A string in quotes. -/
def quoted (s : String) : Text := '"' :: (s.toList.flatMap quotedChar ++ ['"'])

theorem escapeChar_eq_quotedChar (c : Char) : escapeChar c = quotedChar c := by
  by_cases hc : c.toNat < 32
  · have hcontrol : ∀ n < 32, escapeChar (Char.ofNat n) = quotedChar (Char.ofNat n) := by decide
    simpa using hcontrol c.toNat hc
  · have hlt : ¬ c < ' ' := by
      rw [Char.lt_def, UInt32.lt_iff_toNat_lt]
      exact hc
    by_cases hquote : c = '"'
    · rw [hquote]
      rfl
    by_cases hbackslash : c = '\\'
    · rw [hbackslash]
      rfl
    have hkeys : ∀ p ∈ escapeLetters, p.1 = '"' ∨ p.1 = '\\' ∨ p.1.toNat < 32 := by decide
    have hlookup : escapeLetters.lookup c = none := by
      refine List.lookup_eq_none_iff.mpr fun p hp => bne_iff_ne.mpr ?_
      rintro rfl
      rcases hkeys p hp with h | h | h
      · exact hquote h
      · exact hbackslash h
      · exact hc h
    rw [escapeChar, if_neg hquote, if_neg hbackslash, if_pos (Nat.le_of_not_lt hc), quotedChar,
      hlookup]
    exact (if_neg hlt).symm

theorem renderString_eq_quoted (s : String) : renderString s = quoted s := by
  rw [renderString, quoted, funext escapeChar_eq_quotedChar]

theorem decimal_eq_toDigits (n : Nat) : Text.decimal n = Nat.toDigits 10 n := by
  have hdigit : ∀ d < 10, Char.ofNat (48 + d) = d.digitChar := by decide
  induction n using Text.decimal.induct with
  | case1 n h => rw [Text.decimal, if_pos h, Nat.toDigits_of_lt_base h, hdigit n h]
  | case2 n h ih =>
    rw [Text.decimal, if_neg h, ih, hdigit _ (Nat.mod_lt n (by decide)),
      ← Nat.toDigits_of_base_le (by decide) (Nat.le_of_not_lt h)]

theorem renderInteger_eq_toString (n : Int) : renderInteger n = (toString n).toList := by
  have hnat (n : Nat) : Text.decimal n = n.repr.toList := by
    rw [decimal_eq_toDigits, ← Nat.toString_eq_repr, Nat.toString_eq_ofList_toDigits,
      String.toList_ofList]
  cases n with
  | ofNat n => exact hnat n
  | negSucc n =>
    have hminus : toString (Int.negSucc n) = "-" ++ (n + 1).repr := rfl
    rw [renderInteger, hnat, hminus, String.toList_append]
    rfl

/-! ## Lines -/

/-- The lines of parts one below the other, with a comma behind every part but the last. -/
def separated : List (List Text) → List Text
  | [] => []
  | [part] => part
  | part :: parts => part.modifyLast (· ++ [',']) ++ separated parts

/-- The lines of a container with these parts. -/
def bracketed (opening closing : Char) : List (List Text) → List Text
  | [] => [[opening, closing]]
  | part :: parts =>
    [opening] :: (separated (part :: parts)).map ([' ', ' '] ++ ·) ++ [[closing]]

mutual

/-- The lines of a value. A number with a fraction or an exponent is written by its shortest
decimal. -/
def lines : Json → List Text
  | .null => ["null".toList]
  | .bool true => ["true".toList]
  | .bool false => ["false".toList]
  | .number (.integer n) => [(toString n).toList]
  | .number (.float x) => [(Number.float x).render]
  | .string s => [quoted s]
  | .array items => bracketed '[' ']' (itemLines items)
  | .object members => bracketed '{' '}' (memberLines members)

/-- The lines of items. -/
def itemLines : List Json → List (List Text)
  | [] => []
  | v :: rest => lines v :: itemLines rest

/-- The lines of members, the first line of a value behind its name. -/
def memberLines : List (String × Json) → List (List Text)
  | [] => []
  | (name, v) :: rest => (lines v).modifyHead (quoted name ++ [':', ' '] ++ ·) :: memberLines rest

end

theorem itemLines_eq_map (items : List Json) : itemLines items = items.map lines := by
  induction items with
  | nil => rfl
  | cons v rest ih => rw [itemLines, ih, List.map_cons]

theorem memberLines_eq_map (members : List (String × Json)) : memberLines members
    = members.map fun m => m.2.lines.modifyHead (quoted m.1 ++ [':', ' '] ++ ·) := by
  induction members with
  | nil => rfl
  | cons m rest ih => rw [memberLines, ih, List.map_cons]

/-! ## Lines of a text -/

/-- The next level is two blanks deeper. -/
theorem lineAt_succ (level : Nat) : lineAt (level + 1) = lineAt level ++ [' ', ' '] := by
  rw [lineAt, lineAt, Nat.mul_add, List.replicate_add, List.cons_append]
  rfl

/-- On a level, the text consists of these lines. -/
def HasLines (level : Nat) (t : Text) (lines : List Text) : Prop :=
  lines ≠ [] ∧ lineAt level ++ t = lines.flatMap (lineAt level ++ ·)

namespace HasLines

variable {level : Nat} {t : Text} {lines : List Text}

theorem single (t : Text) : HasLines level t [t] := ⟨List.cons_ne_nil _ _, by simp⟩

/-- What stands behind a text stands behind its last line. -/
theorem append (h : HasLines level t lines) (behind : Text) :
    HasLines level (t ++ behind) (lines.modifyLast (· ++ behind)) := by
  obtain ⟨hne, h⟩ := h
  obtain ⟨front, last, rfl⟩ := (List.eq_nil_or_concat' lines).resolve_left hne
  rw [List.modifyLast_concat]
  refine ⟨by simp, ?_⟩
  rw [← List.append_assoc, h]
  simp

/-- What stands in front of a text stands in front of its first line. -/
theorem prepend (h : HasLines level t lines) (front : Text) :
    HasLines level (front ++ t) (lines.modifyHead (front ++ ·)) := by
  obtain ⟨hne, h⟩ := h
  obtain ⟨line, rest, rfl⟩ := List.exists_cons_of_ne_nil hne
  refine ⟨by simp, ?_⟩
  rw [List.flatMap_cons, List.append_assoc, List.append_cancel_left_eq] at h
  rw [h]
  simp

/-- Parts one below the other have the lines of the parts, separated by commas. -/
theorem follow {part : Text} {parts : List Text} {more : List (List Text)}
    (h : HasLines level part lines) (hparts : List.Forall₂ (HasLines level) parts more)
    (finish : Text) :
    lineAt level ++ (part ++ Json.follow (lineAt level) finish parts)
      = (separated (lines :: more)).flatMap (lineAt level ++ ·) ++ finish := by
  induction hparts generalizing part lines with
  | nil => rw [Json.follow, separated, ← List.append_assoc, h.2]
  | @cons part' lines' parts more h' hparts ih =>
    rw [separated, List.flatMap_append, List.append_assoc, ← ih h', ← (h.append [',']).2,
      Json.follow]
    · simp
    · exact fun heq => absurd heq (List.cons_ne_nil _ _)

/-- A container has the lines of its parts between those of its brackets. -/
theorem enclose {opening closing : Char} {parts : List Text} {more : List (List Text)}
    (hparts : List.Forall₂ (HasLines (level + 1)) parts more) :
    HasLines level (opening :: Layout.indented.enclose level closing parts)
      (bracketed opening closing more) := by
  cases hparts with
  | nil => exact single _
  | @cons part lines parts more h hparts =>
    have hfollow := h.follow hparts (lineAt level ++ [closing])
    have hdeeper : (separated (lines :: more)).flatMap (lineAt (level + 1) ++ ·)
        = ((separated (lines :: more)).map ([' ', ' '] ++ ·)).flatMap (lineAt level ++ ·) := by
      simp only [List.flatMap_map, lineAt_succ, List.append_assoc]
    rw [hdeeper] at hfollow
    refine ⟨List.cons_ne_nil _ _, ?_⟩
    rw [bracketed, List.flatMap_append, List.flatMap_cons, List.flatMap_singleton,
      List.append_assoc, List.append_assoc, ← hfollow]
    rfl

end HasLines

/-- What is written on a level are the lines of the value. -/
theorem hasLines_write (level : Nat) (v : Json) :
    HasLines level (Layout.indented.write level v) v.lines := by
  induction v using inductionOn generalizing level with
  | null => exact .single _
  | bool b => cases b <;> exact .single _
  | number n =>
    cases n with
    | integer n =>
      rw [Layout.write, render, Number.render, renderInteger_eq_toString, lines]
      exact .single _
    | float x => exact .single _
  | string s =>
    rw [Layout.write, render, renderString_eq_quoted, lines]
    exact .single _
  | array items ih =>
    rw [Layout.write_array, lines, itemLines_eq_map]
    refine .enclose ?_
    rw [List.forall₂_map_left_iff, List.forall₂_map_right_iff, List.forall₂_same]
    exact fun v hv => ih v hv (level + 1)
  | object members ih =>
    rw [Layout.write_object, lines, memberLines_eq_map]
    refine .enclose ?_
    rw [List.forall₂_map_left_iff, List.forall₂_map_right_iff, List.forall₂_same]
    intro m hm
    have hmember := (ih m hm (level + 1)).prepend (renderString m.1 ++ [':', ' '])
    rw [List.append_assoc] at hmember
    rw [← renderString_eq_quoted]
    exact hmember

/-- Line breaks in front of lines, or behind them. -/
theorem flatMap_break (lines : List Text) :
    lines.flatMap ('\n' :: ·) ++ ['\n'] = '\n' :: lines.flatMap (· ++ ['\n']) := by
  induction lines with
  | nil => rfl
  | cons line rest ih =>
    rw [List.flatMap_cons, List.flatMap_cons, List.append_assoc, ih]
    simp

/-- **An indented text is its lines**, each behind the others. -/
theorem renderIndented_eq_lines (v : Json) :
    v.renderIndented 0 ++ ['\n'] = v.lines.flatMap (· ++ ['\n']) := by
  have h : '\n' :: v.renderIndented 0 = v.lines.flatMap ('\n' :: ·) := by
    rw [renderIndented_eq_write]
    exact (hasLines_write 0 v).2
  have hbreak := flatMap_break v.lines
  rw [← h] at hbreak
  exact (List.cons.inj hbreak).2

example : (Json.object [("a", .array [.integer (-1), .null]), ("\u0001", .object [])]).lines
    = ["\x7b", "  \"a\": [", "    -1,", "    null", "  ],", "  \"\\u0001\": \x7b\x7d", "\x7d"].map
      String.toList := by
  decide +kernel

end Json

end ForgeQuery
