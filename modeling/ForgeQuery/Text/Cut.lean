import ForgeQuery.Text.Blank

/-!
# Cutting texts apart

The three cuts that the readers of queries share: at the first occurrence of a character, off a
last character, and around a run of name characters; and the test whether a text mentions a word.
Each of them loses nothing: the parts and the character between them give the text back.
-/

namespace ForgeQuery

namespace Text

/-- What stands before and after the first `c`, or nothing when there is no `c`. -/
def splitFirst? (c : Char) : Text → Option (Text × Text)
  | [] => none
  | x :: rest =>
    if x = c then some ([], rest)
    else (splitFirst? c rest).map fun parts => (x :: parts.1, parts.2)

/-- The parts of a cut give the text back, and the first of them is free of `c`. -/
theorem splitFirst?_eq_some_iff {c : Char} {t a b : Text} :
    splitFirst? c t = some (a, b) ↔ t = a ++ c :: b ∧ c ∉ a := by
  induction t generalizing a with
  | nil => simp [splitFirst?]
  | cons x rest ih =>
    rw [splitFirst?]
    by_cases hx : x = c
    · subst hx
      rw [if_pos rfl]
      constructor
      · intro h
        obtain ⟨rfl, rfl⟩ := Prod.mk.inj (Option.some.inj h)
        simp
      · rintro ⟨h, hn⟩
        cases a with
        | nil => simp_all
        | cons y a => simp_all
    · rw [if_neg hx]
      constructor
      · intro h
        obtain ⟨⟨a', b'⟩, hp, he⟩ := Option.map_eq_some_iff.1 h
        obtain ⟨rfl, rfl⟩ := Prod.mk.inj he
        obtain ⟨rfl, hn⟩ := ih.1 hp
        exact ⟨rfl, by simp [hn, Ne.symm hx]⟩
      · rintro ⟨h, hn⟩
        cases a with
        | nil => simp_all
        | cons y a =>
          obtain ⟨rfl, rfl⟩ := List.cons.inj h
          rw [ih.2 ⟨rfl, fun hm => hn (List.mem_cons_of_mem _ hm)⟩]
          rfl

/-- The text without its last character, which has to be `c`. -/
def stripLast? (c : Char) (t : Text) : Option Text :=
  if t.getLast? = some c then some t.dropLast else none

@[simp] theorem stripLast?_append (c : Char) (t : Text) : stripLast? c (t ++ [c]) = some t := by
  simp [stripLast?]

theorem stripLast?_eq_some_iff {c : Char} {t front : Text} :
    stripLast? c t = some front ↔ t = front ++ [c] := by
  constructor
  · intro h
    rw [stripLast?] at h
    split at h
    · next hlast =>
      obtain ⟨front, rfl⟩ := List.getLast?_eq_some_iff.mp hlast
      rw [List.dropLast_concat] at h
      rw [Option.some.inj h]
    · cases h
  · rintro rfl
    exact stripLast?_append c front

/-- Whether `word` stands somewhere in the text. -/
def mentions (word : Text) : Text → Bool
  | [] => word.isEmpty
  | c :: rest => word.isPrefixOf (c :: rest) || mentions word rest

theorem mentions_iff {word t : Text} : mentions word t = true ↔ word <:+: t := by
  induction t with
  | nil => simp [mentions]
  | cons c rest ih =>
    rw [mentions, Bool.or_eq_true, ih, List.isPrefixOf_iff_prefix, List.infix_cons_iff]

/-! ## Names -/

/-- Letters and digits of ASCII, and `_`. -/
def isNameChar (c : Char) : Bool := c.isAlphanum || c == '_'

/-- The longest run of name characters at the start, and what follows it. -/
def takeName (t : Text) : Text × Text := (t.takeWhile isNameChar, t.dropWhile isNameChar)

theorem takeName_append (t : Text) : (takeName t).1 ++ (takeName t).2 = t :=
  List.takeWhile_append_dropWhile

end Text

end ForgeQuery
