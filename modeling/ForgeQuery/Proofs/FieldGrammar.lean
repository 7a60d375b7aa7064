import ForgeQuery.Proofs.DocumentGrammar

/-!
# The grammar of field expressions

What a unit has to look like, and what it is read as, without a reader: a name, blanks, an argument
list that may be missing, and a sub-selection in braces that may be missing too. Each part has a
relation of its own (`SpellsArguments`, `SpellsSelection`), and `SpellsField` puts them together.
The reader accepts the units of this grammar and no others, each as what it spells
(`fields_follow_their_grammar`).

The parts are read in the order in which they stand, and each of them is told from what follows by
its first character: the blanks by a blank, the list by a parenthesis and the sub-selection by a
brace, none of which can be in a name. Inside the braces there may be anything.
-/

namespace ForgeQuery

/-! ## The grammar -/

/-- The text is the argument list of a unit, with the blanks behind it, and holds these string
arguments. -/
inductive SpellsArguments : Text → Ordered String String → Prop where
  /-- there is no list, and no argument -/
  | absent : SpellsArguments [] ∅
  /-- what stands between the parentheses closes none -/
  | list (inside back : Text) (isOpen : ')' ∉ inside) (blank : Text.IsBlank back) :
      SpellsArguments ('(' :: (inside ++ ')' :: back)) (stringArguments inside)

/-- The text is the part of a unit behind its arguments, and this is its sub-selection. -/
inductive SpellsSelection : Text → Option Text → Prop where
  /-- there are no braces -/
  | absent : SpellsSelection [] none
  /-- nothing stands between the braces -/
  | hollow : SpellsSelection ['{', '}'] none
  /-- anything else stands between them -/
  | braced (sub : Text) (ne_nil : sub ≠ []) : SpellsSelection ('{' :: (sub ++ ['}'])) (some sub)

/-- The text is a unit, and this is what it says. -/
inductive SpellsField : Text → FieldExpression → Prop where
  /-- a name with possibly blanks, and the two parts that may be missing -/
  | parts {name gap list braces : Text} {arguments : Ordered String String} {sub : Option Text}
      (named : Text.IsName name) (blank : Text.IsBlank gap)
      (listed : SpellsArguments list arguments) (selected : SpellsSelection braces sub) :
      SpellsField (name ++ (gap ++ (list ++ braces))) ⟨String.ofList name, arguments, sub⟩

/-! ## The parts and their readers -/

/-- What stands behind the arguments is empty or starts with a brace. -/
theorem SpellsSelection.head {braces : Text} {sub : Option Text} (h : SpellsSelection braces sub)
    {c : Char} {tail : Text} (hc : braces = c :: tail) : c = '{' := by
  cases h with
  | absent => cases hc
  | hollow => exact (List.cons.inj hc).1.symm
  | braced sub _ => exact (List.cons.inj hc).1.symm

/-- What stands behind the blanks is empty or starts with a bracket. -/
theorem SpellsArguments.head {list braces : Text} {arguments : Ordered String String}
    {sub : Option Text} (hl : SpellsArguments list arguments) (hb : SpellsSelection braces sub)
    {c : Char} {tail : Text} (hc : list ++ braces = c :: tail) : c = '(' ∨ c = '{' := by
  cases hl with
  | absent => exact Or.inr (hb.head hc)
  | list inside back _ _ => exact Or.inl (List.cons.inj hc).1.symm

/-- A text that starts with no blank, if with anything, has nothing to be trimmed off its start. -/
theorem Text.trimStart_of_forall_head {t : Text}
    (h : ∀ c tail, t = c :: tail → isBlank c = false) : trimStart t = t := by
  cases t with
  | nil => rfl
  | cons c tail => exact trimStart_of_head (h c tail rfl) tail

/-- The sub-selection is read as the grammar has it. -/
theorem FieldExpression.subSelection?_eq_some_iff {braces : Text} {sub : Option Text} :
    subSelection? braces = some sub ↔ SpellsSelection braces sub := by
  constructor
  · intro h
    cases braces with
    | nil =>
      obtain rfl := Option.some.inj h
      exact .absent
    | cons c rest =>
      obtain ⟨inner, hinner, rfl⟩ := Option.map_eq_some_iff.mp h
      rw [braced?_eq_some_iff.mp hinner]
      cases inner with
      | nil => exact .hollow
      | cons d inner => exact .braced (d :: inner) (List.cons_ne_nil d inner)
  · intro h
    cases h with
    | absent => rfl
    | hollow => rfl
    | braced sub ne_nil =>
      have hbraced : braced? ('{' :: (sub ++ ['}'])) = some sub := braced?_eq_some_iff.mpr rfl
      have hsub : ¬ sub.isEmpty = true := by simpa using ne_nil
      rw [subSelection?, hbraced, Option.map_some, if_neg hsub]
      exact List.cons_ne_nil _ _

/-- An argument list that has been read stands at the start, as the grammar has it. -/
theorem exists_of_parenthesised?_arguments {t rest : Text} {list : Option Text}
    (h : parenthesised? t = some (list, rest)) :
    ∃ front, t = front ++ rest ∧ SpellsArguments front ((list.map stringArguments).getD ∅) := by
  rcases parenthesised?_eq_some_iff.mp h with ⟨-, rfl, rfl⟩ | ⟨inside, behind, rfl, hopen, rfl, rfl⟩
  · exact ⟨[], rfl, .absent⟩
  · obtain ⟨back, hback, hbehind⟩ := Text.exists_append_trimStart behind
    refine ⟨'(' :: (inside ++ ')' :: back), ?_, .list inside back hopen hback⟩
    rw [List.cons_append, List.append_assoc, List.cons_append, ← hbehind]

/-- An argument list is read up to its end, whatever sub-selection stands behind it. -/
theorem SpellsArguments.parenthesised?_eq {list braces : Text}
    {arguments : Ordered String String} {sub : Option Text} (hl : SpellsArguments list arguments)
    (hb : SpellsSelection braces sub) :
    ∃ inside, parenthesised? (list ++ braces) = some (inside, braces) ∧
      (inside.map stringArguments).getD ∅ = arguments := by
  cases hl with
  | absent =>
    refine ⟨none, parenthesised?_eq_some_iff.mpr (Or.inl ⟨fun inside h => ?_, rfl, rfl⟩), rfl⟩
    exact absurd (hb.head h) (by decide)
  | list inside back hopen hback =>
    refine ⟨some inside, parenthesised?_eq_some_iff.mpr (Or.inr ⟨inside, back ++ braces, ?_⟩), rfl⟩
    refine ⟨by rw [List.cons_append, List.append_assoc, List.cons_append], hopen, rfl, ?_⟩
    rw [Text.trimStart_append_left hback, Text.trimStart_of_forall_head]
    intro c tail hc
    rw [hb.head hc]
    decide

/-! ## Units -/

/-- Behind its name a unit does not go on with a name character. -/
theorem isNameChar_behind_gap {gap list braces : Text} {arguments : Ordered String String}
    {sub : Option Text} (hgap : Text.IsBlank gap) (hl : SpellsArguments list arguments)
    (hb : SpellsSelection braces sub) {c : Char} {tail : Text}
    (hc : gap ++ (list ++ braces) = c :: tail) : Text.isNameChar c = false := by
  cases gap with
  | nil => rcases hl.head hb hc with rfl | rfl <;> decide
  | cons d gap =>
    obtain ⟨rfl, -⟩ := List.cons.inj hc
    by_contra hname
    have hblank := Text.isBlank_of_isNameChar ((Bool.not_eq_false _).mp hname)
    rw [hgap d List.mem_cons_self] at hblank
    cases hblank

/-- **A unit of the grammar is read** as what it says. -/
theorem SpellsField.parse?_eq {unit : Text} {field : FieldExpression} (h : SpellsField unit field) :
    FieldExpression.parse? unit = some field := by
  obtain @⟨name, gap, list, braces, arguments, sub, named, blank, listed, selected⟩ := h
  have hname : Text.takeName (name ++ (gap ++ (list ++ braces))) = (name, gap ++ (list ++ braces)) :=
    Text.takeName_of_named named.named fun c tail => isNameChar_behind_gap blank listed selected
  have htrim : Text.trimStart (gap ++ (list ++ braces)) = list ++ braces := by
    rw [Text.trimStart_append_left blank, Text.trimStart_of_forall_head]
    intro c tail hc
    rcases listed.head selected hc with rfl | rfl <;> decide
  obtain ⟨inside, hlist, harguments⟩ := listed.parenthesised?_eq selected
  have hsub := FieldExpression.subSelection?_eq_some_iff.mpr selected
  obtain ⟨c, rest, rfl⟩ := List.exists_cons_of_ne_nil named.ne_nil
  rw [FieldExpression.parse?, hname]
  simp only [htrim, hlist, hsub, harguments, Option.bind_eq_bind, Option.bind_some]

/-- **A unit that is read is one of the grammar.** -/
theorem spellsField_of_parse? {unit : Text} {field : FieldExpression}
    (h : FieldExpression.parse? unit = some field) : SpellsField unit field := by
  rw [FieldExpression.parse?] at h
  split at h
  · cases h
  · next name rest hno hname =>
    obtain ⟨⟨list, behind⟩, hlist, h⟩ := Option.bind_eq_some_iff.mp h
    obtain ⟨sub, hsub, h⟩ := Option.bind_eq_some_iff.mp h
    obtain rfl := Option.some.inj h
    obtain ⟨gap, hgap, hrest⟩ := Text.exists_append_trimStart rest
    obtain ⟨front, hfront, hspells⟩ := exists_of_parenthesised?_arguments hlist
    have hunit : unit = name ++ (gap ++ (front ++ behind)) := by
      rw [← hfront, ← hrest, ← Text.takeName_append unit, hname]
    rw [hunit]
    refine .parts ⟨hno, ?_⟩ hgap hspells (FieldExpression.subSelection?_eq_some_iff.mp hsub)
    obtain rfl : (Text.takeName unit).1 = name := congrArg Prod.fst hname
    exact List.all_eq_true.mp List.all_takeWhile

/-- **Field expressions follow their grammar.** A unit is read as a field expression exactly if it
spells it; it spells one at most; and what spells none is rejected. -/
theorem fields_follow_their_grammar (unit : Text) :
    (∀ field, FieldExpression.parse? unit = some field ↔ SpellsField unit field) ∧
      (FieldExpression.parse? unit = none ↔ ∀ field, ¬ SpellsField unit field) ∧
      ∀ field field', SpellsField unit field → SpellsField unit field' → field = field' := by
  have hparse (field : FieldExpression) :
      FieldExpression.parse? unit = some field ↔ SpellsField unit field :=
    ⟨spellsField_of_parse?, SpellsField.parse?_eq⟩
  refine ⟨hparse, ?_, ?_⟩
  · rw [Option.eq_none_iff_forall_ne_some]
    exact forall_congr' fun field => not_congr (hparse field)
  · intro field field' h h'
    have hsame := (hparse field).mpr h
    rw [(hparse field').mpr h'] at hsame
    exact (Option.some.inj hsame).symm

/-- A list with an open brace and an opening parenthesis in it, behind a blank that is no space, and
braces with stray braces between them are read, and the unit says nothing else; a blank in front, a
second word, a text behind the braces, and a list or braces that are left open are rejected. -/
theorem stray_brackets_are_read :
    let unit := "repo\u00a0(id: \"a\", \x7b (n: \"b\")\n\x7b \x7d \x7b \x7d".toList
    let field : FieldExpression :=
      ⟨"repo", .ofList [("id", "a"), ("n", "b")], some " \x7d \x7b ".toList⟩
    FieldExpression.parse? unit = some field ∧
      (∀ field', SpellsField unit field' → field = field') ∧
      ∀ broken ∈ [" me", "two words", "me \x7b id \x7d x", "user(id: \"a\"", "me \x7b id"],
        ∀ field, ¬ SpellsField broken.toList field := by
  intro unit field
  have hspells : SpellsField unit field := by
    have harguments : stringArguments "id: \"a\", \x7b (n: \"b\"".toList = field.arguments := by
      decide +kernel
    have hnamed : Text.IsName "repo".toList := by decide
    have hgap : Text.IsBlank ['\u00a0'] := by decide
    have hparts := SpellsField.parts hnamed hgap
      (.list "id: \"a\", \x7b (n: \"b\"".toList ['\n'] (by decide) (by decide))
      (.braced " \x7d \x7b ".toList (by decide))
    rw [harguments] at hparts
    exact hparts
  obtain ⟨hread, -, hunique⟩ := fields_follow_their_grammar unit
  refine ⟨(hread field).mpr hspells, fun field' => hunique field field' hspells, ?_⟩
  intro broken hbroken
  refine (fields_follow_their_grammar broken.toList).2.1.mp ?_
  revert broken
  decide +kernel

end ForgeQuery
