import ForgeQuery.Proofs.ArgumentScan
import ForgeQuery.Proofs.Splitting

/-!
# Written arguments read back

An argument is written as a key, a colon, a space and a value, and arguments are joined by a comma
and a space. The scanner finds exactly the string arguments among them
(`WrittenArgument.argumentMatches_listText`): a string argument is found where it stands, and
anything else is passed over, because no quote follows its colon before the next comma.

What may be written is settled by the types: keys are names, and a value is free of the characters
that would end it. In particular no bracket is written.
-/

namespace ForgeQuery

/-! ## Texts without brackets -/

/-- The characters that move the depth. -/
def brackets : List Char := ['(', ')', '{', '}']

/-- No character of the text is a bracket. -/
def BracketFree (t : Text) : Prop := ∀ c ∈ t, c ∉ brackets

namespace BracketFree

theorem append {a b : Text} (ha : BracketFree a) (hb : BracketFree b) : BracketFree (a ++ b) := by
  intro c hc
  rcases List.mem_append.mp hc with hc | hc
  · exact ha c hc
  · exact hb c hc

theorem cons {c : Char} (hc : c ∉ brackets) {t : Text} (ht : BracketFree t) :
    BracketFree (c :: t) := by
  intro d hd
  rcases List.mem_cons.mp hd with rfl | hd
  · exact hc
  · exact ht d hd

theorem nil : BracketFree [] := fun _ hc => absurd hc List.not_mem_nil

theorem not_mem {t : Text} (ht : BracketFree t) {c : Char} (hc : c ∈ brackets) : c ∉ t :=
  fun h => ht c h hc

theorem balanced {t : Text} (ht : BracketFree t) : Balanced t := by
  constructor
  · rw [List.count_eq_zero.mpr (ht.not_mem (by decide)),
      List.count_eq_zero.mpr (ht.not_mem (by decide))]
  · rw [List.count_eq_zero.mpr (ht.not_mem (by decide)),
      List.count_eq_zero.mpr (ht.not_mem (by decide))]

/-- Inside any bracket a text without brackets is one piece. -/
theorem pieces {t : Text} (ht : BracketFree t) {d : Depth} (hd : d ≠ Depth.ground) :
    pieces d t = [t] := by
  refine pieces_of_guarded fun p hp => ?_
  have hb : BracketFree p := fun c hc => ht c (hp.subset hc)
  rwa [hb.balanced.afterAll]

end BracketFree

theorem Text.IsName.bracketFree {t : Text} (h : Text.IsName t) : BracketFree t := by
  rintro c hc hb
  have hn := h.named c hc
  simp only [brackets, List.mem_cons, List.not_mem_nil, or_false] at hb
  rcases hb with rfl | rfl | rfl | rfl <;> exact absurd hn (by decide)

/-! ## Written arguments -/

/-- A value in an argument list. -/
inductive WrittenValue where
  /-- a string between quotes -/
  | quoted (value : Text) (free : ∀ c ∈ value, c ∉ '"' :: brackets)
  /-- anything that is no string -/
  | plain (value : Text) (free : ∀ c ∈ value, c ∉ '"' :: ':' :: brackets)

namespace WrittenValue

/-- The text of a value. -/
def text : WrittenValue → Text
  | quoted value _ => '"' :: (value ++ ['"'])
  | plain value _ => value

theorem bracketFree_text (v : WrittenValue) : BracketFree v.text := by
  cases v with
  | quoted value free =>
    refine .cons (by decide) (.append (fun c hc hb => ?_) (.cons (by decide) .nil))
    exact free c hc (List.mem_cons_of_mem _ hb)
  | plain value free =>
    exact fun c hc hb => free c hc (List.mem_cons_of_mem _ (List.mem_cons_of_mem _ hb))

end WrittenValue

/-- An argument: a key and a value. -/
structure WrittenArgument where
  /-- the key -/
  key : Text
  /-- the key is a name -/
  named : Text.IsName key
  /-- the value -/
  value : WrittenValue

namespace WrittenArgument

/-- The text of an argument. -/
def text (a : WrittenArgument) : Text := a.key ++ ':' :: ' ' :: a.value.text

/-- The key and the string, if the value is one. -/
def pair? (a : WrittenArgument) : Option (Text × Text) :=
  match a.value with
  | .quoted value _ => some (a.key, value)
  | .plain _ _ => none

/-- The text of a list of arguments, without its parentheses. -/
def listText : List WrittenArgument → Text
  | [] => []
  | [a] => a.text
  | a :: b :: rest => a.text ++ ',' :: ' ' :: listText (b :: rest)

theorem bracketFree_text (a : WrittenArgument) : BracketFree a.text :=
  a.named.bracketFree.append (.cons (by decide) (.cons (by decide) a.value.bracketFree_text))

theorem bracketFree_listText (args : List WrittenArgument) : BracketFree (listText args) := by
  induction args with
  | nil => exact .nil
  | cons a rest ih =>
    cases rest with
    | nil => exact a.bracketFree_text
    | cons b rest => exact a.bracketFree_text.append (.cons (by decide) (.cons (by decide) ih))

/-! ## The scanner on written arguments -/

/-- A string argument is found, whatever follows it. -/
theorem argumentMatches_quoted {key value : Text} (hk : Text.IsName key) (hv : '"' ∉ value)
    (rest : Text) :
    argumentMatches (key ++ ':' :: ' ' :: '"' :: (value ++ '"' :: rest))
      = (key, value) :: argumentMatches rest := by
  apply argumentMatches_of_some
  exact argument?_eq_some_iff.mpr ⟨hk, hv, [], [' '], .nil, .space, rfl⟩

/-- What can follow an argument: nothing, or a comma. -/
def IsStop (rest : Text) : Prop := rest = [] ∨ ∃ tail, rest = ',' :: tail

/-- Neither a name nor a stretch of blanks reaches over a stop. -/
theorem IsStop.not_append {rest m : Text} (hs : IsStop rest) {c : Char} (hc : c ≠ ',') {b : Text}
    (hm : ',' ∉ m) : rest ≠ m ++ c :: b := by
  rintro rfl
  rcases hs with h | ⟨tail, h⟩
  · exact absurd (List.append_eq_nil_iff.mp h).2 (List.cons_ne_nil c b)
  · cases m with
    | nil => exact hc (List.cons.inj h).1
    | cons d m => exact hm ((List.cons.inj h).1 ▸ List.mem_cons_self)

/-- A character of neither kind is not in a name with blanks behind it. -/
theorem not_mem_name_append_blank {key v : Text} (hk : Text.IsName key) (hv : Text.IsBlank v)
    {c : Char} (hn : Text.isNameChar c = false) (hb : Text.isBlank c = false) :
    c ∉ key ++ v := by
  intro h
  rcases List.mem_append.mp h with h | h
  · rw [hk.named c h] at hn
    cases hn
  · rw [hv c h] at hb
    cases hb

/-- Without a colon before the next stop there is no argument. -/
theorem argument?_of_no_colon {s rest : Text} (hs : ':' ∉ s) (hr : IsStop rest) :
    argument? (s ++ rest) = none := by
  cases h : argument? (s ++ rest) with
  | none => rfl
  | some m =>
    obtain ⟨hk, -, v, w, hv, -, ht⟩ := argument?_eq_some_iff.mp h
    rw [← List.append_assoc] at ht
    obtain ⟨x, hx, hrest⟩ := Text.exists_of_append_eq hs ht
    have hcomma : ',' ∉ _ := not_mem_name_append_blank hk hv (by decide) (by decide)
    rw [hx] at hcomma
    exact absurd hrest (hr.not_append (by decide) fun h => hcomma (List.mem_append_right _ h))

/-- Without a quote between a colon and the next stop there is no argument. -/
theorem argument?_of_no_quote {s u rest : Text} (hs : ':' ∉ s) (hu : '"' ∉ u) (hr : IsStop rest) :
    argument? (s ++ ':' :: (u ++ rest)) = none := by
  cases h : argument? (s ++ ':' :: (u ++ rest)) with
  | none => rfl
  | some m =>
    obtain ⟨hk, -, v, w, hv, hw, ht⟩ := argument?_eq_some_iff.mp h
    rw [← List.append_assoc] at ht
    obtain ⟨-, hrest⟩ := Text.eq_of_append_cons hs
      (not_mem_name_append_blank hk hv (by decide) (by decide)) ht
    obtain ⟨x, hx, hstop⟩ := Text.exists_of_append_eq hu hrest
    refine absurd hstop (hr.not_append (by decide) fun h => ?_)
    exact absurd (hw ',' (hx ▸ List.mem_append_right _ h)) (by decide)

/-- An argument that is no string is passed over. -/
theorem argumentMatches_plain {key value : Text} (hk : ':' ∉ key) (hc : ':' ∉ value)
    (hq : '"' ∉ value) {rest : Text} (hr : IsStop rest) :
    argumentMatches (key ++ ':' :: ' ' :: (value ++ rest)) = argumentMatches rest := by
  have hu : '"' ∉ ' ' :: value := by
    rw [List.mem_cons, not_or]
    exact ⟨by decide, hq⟩
  rw [argumentMatches_skip key]
  · rw [argumentMatches_of_none (argument?_of_head (by decide) _),
      argumentMatches_of_none (argument?_of_head (by decide) _), argumentMatches_skip]
    -- an argument that begins in the value has no colon before the stop
    intro c s hs
    exact argument?_of_no_colon (fun h => hc (hs.subset h)) hr
  · -- one that begins in the key has its colon, but no quote behind it
    intro c s hs
    exact argument?_of_no_quote (fun h => hk (hs.subset h)) hu hr

/-- The scanner takes a written argument that is a string and no other. -/
theorem argumentMatches_text (a : WrittenArgument) {rest : Text} (hr : IsStop rest) :
    argumentMatches (a.text ++ rest) = a.pair?.toList ++ argumentMatches rest := by
  obtain ⟨key, named, value⟩ := a
  cases value with
  | quoted value free =>
    have ht : text ⟨key, named, .quoted value free⟩ ++ rest
        = key ++ ':' :: ' ' :: '"' :: (value ++ '"' :: rest) := by
      simp [text, WrittenValue.text]
    rw [ht, argumentMatches_quoted named fun h => free _ h List.mem_cons_self]
    rfl
  | plain value free =>
    have ht : text ⟨key, named, .plain value free⟩ ++ rest
        = key ++ ':' :: ' ' :: (value ++ rest) := by
      simp [text, WrittenValue.text]
    rw [ht, argumentMatches_plain (fun h => absurd (named.named _ h) (by decide))
      (fun h => free _ h (by decide)) (fun h => free _ h (by decide)) hr]
    rfl

/-- **Arguments read back**: the scanner finds the string arguments of a written list, in order. -/
theorem argumentMatches_listText (args : List WrittenArgument) :
    argumentMatches (listText args) = args.filterMap pair? := by
  induction args with
  | nil => exact argumentMatches_nil
  | cons a rest ih =>
    have hcons : (a :: rest).filterMap pair? = a.pair?.toList ++ rest.filterMap pair? := by
      cases h : a.pair? with
      | none => rw [List.filterMap_cons_none h]; rfl
      | some p => rw [List.filterMap_cons_some h]; rfl
    rw [hcons]
    cases rest with
    | nil =>
      have h := a.argumentMatches_text (Or.inl rfl)
      rwa [List.append_nil, argumentMatches_nil] at h
    | cons b rest =>
      rw [listText, a.argumentMatches_text (Or.inr ⟨_, rfl⟩),
        argumentMatches_of_none (argument?_of_head (by decide) _),
        argumentMatches_of_none (argument?_of_head (by decide) _), ih]

end WrittenArgument

end ForgeQuery
