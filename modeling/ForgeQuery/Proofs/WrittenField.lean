import ForgeQuery.Proofs.Heading
import ForgeQuery.Proofs.Rejoining
import ForgeQuery.Proofs.WrittenArgument

/-!
# Written documents read back

The headline theorem: a list of structured fields, written out as a document with any heading and
any mixture of separators, is read back field by field (`written_document_reads_back`). Four
readers look at the same characters under different rules, and each has its own reason to go on:

* the document reader sees a heading and two outer braces (`Document.parse?_heading`);
* the splitter sees separators at ground depth only between fields, since what stands in an
  argument list or in a sub-selection is never at ground depth (`WrittenField.pieces_text`);
* the field reader sees a name, a list up to the first closing parenthesis, and two braces
  (`WrittenField.parse?_text`);
* the argument scanner sees a quote right behind a colon only where a string value was written
  (`WrittenArgument.argumentMatches_listText`).

A `WrittenField` holds proofs that its name is a name and that its sub-selection is closed.
-/

namespace ForgeQuery

/-! ## Written fields -/

/-- A text that can stand between braces: not empty, balanced, and no prefix of it closes more
braces than it opens. -/
structure IsClosed (sub : Text) : Prop where
  /-- there is a character -/
  ne_nil : sub ≠ []
  /-- the brackets balance -/
  balanced : Balanced sub
  /-- the enclosing brace is not closed early -/
  guarded : ∀ p, p <+: sub → p.count '}' ≤ p.count '{'

/-- A field: a name, arguments, and perhaps a sub-selection. -/
structure WrittenField where
  /-- the name -/
  name : Text
  /-- the name is a name -/
  named : Text.IsName name
  /-- the arguments -/
  arguments : List WrittenArgument
  /-- the text between the braces -/
  sub : Option Text
  /-- the sub-selection can stand between braces -/
  closed : ∀ s, sub = some s → IsClosed s

namespace WrittenField

/-- The text of the arguments of a field. Without arguments there are no parentheses. -/
def argumentText : List WrittenArgument → Text
  | [] => []
  | a :: rest => '(' :: (WrittenArgument.listText (a :: rest) ++ [')'])

/-- The text of a sub-selection. Without one there are no braces. -/
def subText : Option Text → Text
  | none => []
  | some s => ' ' :: '{' :: (s ++ ['}'])

/-- The text of a field. -/
def text (f : WrittenField) : Text := f.name ++ (argumentText f.arguments ++ subText f.sub)

/-- What a reader should make of a field: of the arguments, the strings alone; a repeated key
keeps its first place and its last value. -/
def expression (f : WrittenField) : FieldExpression where
  name := String.ofList f.name
  arguments := Ordered.ofList ((f.arguments.filterMap WrittenArgument.pair?).map fun m =>
    (String.ofList m.1, String.ofList m.2))
  subSelection := f.sub

/-! ## The field reader on a written field -/

/-- Nothing of a sub-selection is lost. -/
theorem subSelection?_subText {sub : Option Text} (h : ∀ s, sub = some s → IsClosed s) :
    FieldExpression.subSelection? (Text.trimStart (subText sub)) = some sub := by
  cases sub with
  | none => rfl
  | some s =>
    have hs : s.isEmpty = false := by
      rw [List.isEmpty_eq_false_iff]
      exact (h s rfl).ne_nil
    have ht : FieldExpression.subSelection? (Text.trimStart (subText (some s)))
        = (Text.stripLast? '}' (s ++ ['}'])).map fun sub =>
          if sub.isEmpty then none else some sub := rfl
    rw [ht, Text.stripLast?_append, Option.map_some, hs]
    rfl

/-- The rest of a field starts with no name character. -/
theorem argumentText_append_head (args : List WrittenArgument) (sub : Option Text) :
    ∀ c tail, argumentText args ++ subText sub = c :: tail → Text.isNameChar c = false := by
  intro c tail h
  cases args with
  | nil =>
    cases sub with
    | none => cases h
    | some s =>
      obtain ⟨rfl, -⟩ := List.cons.inj h
      decide
  | cons a rest =>
    obtain ⟨rfl, -⟩ := List.cons.inj h
    decide

/-- A written argument list is read up to its own closing parenthesis. -/
theorem parenthesised?_argumentText (args : List WrittenArgument) (sub : Option Text) :
    parenthesised? (Text.trimStart (argumentText args ++ subText sub))
      = some (match args with
        | [] => none
        | a :: rest => some (WrittenArgument.listText (a :: rest)),
        Text.trimStart (subText sub)) := by
  cases args with
  | nil =>
    cases sub with
    | none => rfl
    | some s => rfl
  | cons a rest =>
    have hclose : ')' ∉ WrittenArgument.listText (a :: rest) :=
      (WrittenArgument.bracketFree_listText _).not_mem (by decide)
    have ht : Text.trimStart (argumentText (a :: rest) ++ subText sub)
        = '(' :: (WrittenArgument.listText (a :: rest) ++ ')' :: subText sub) := by
      rw [argumentText, List.cons_append, Text.trimStart_of_head (by decide), List.append_assoc,
        List.singleton_append]
    rw [ht, parenthesised?, Text.splitFirst?_eq_some_iff.mpr ⟨rfl, hclose⟩, Option.map_some]

/-- **A written field reads back.** -/
theorem parse?_text (f : WrittenField) : FieldExpression.parse? f.text = some f.expression := by
  obtain ⟨k, ks, hk⟩ := List.exists_cons_of_ne_nil f.named.ne_nil
  have hname := Text.takeName_of_named f.named.named (argumentText_append_head f.arguments f.sub)
  rw [hk] at hname
  rw [FieldExpression.parse?, text, hk, hname]
  simp only [parenthesised?_argumentText, Option.bind_eq_bind, Option.bind_some,
    subSelection?_subText f.closed, Option.some.injEq, expression, FieldExpression.mk.injEq, hk,
    true_and, and_true]
  cases hargs : f.arguments with
  | nil => rfl
  | cons a rest =>
    rw [Option.map_some, Option.getD_some, stringArguments,
      WrittenArgument.argumentMatches_listText]

/-! ## The splitter on a written field -/

theorem pieces_argumentText (args : List WrittenArgument) :
    pieces Depth.ground (argumentText args) = [argumentText args] := by
  cases args with
  | nil => rfl
  | cons a rest =>
    have hopen : pieces Depth.ground ['('] = [['(']] := rfl
    have hlist := (WrittenArgument.bracketFree_listText (a :: rest)).pieces
      (d := Depth.ground.afterAll ['(']) (by decide)
    have hclose (d : Depth) : pieces d [')'] = [[')']] :=
      pieces_of_no_separator d (by simp [isSeparator])
    exact pieces_append_single hopen (pieces_append_single hlist (hclose _))

theorem balanced_argumentText (args : List WrittenArgument) : Balanced (argumentText args) := by
  cases args with
  | nil => exact BracketFree.nil.balanced
  | cons a rest =>
    have h := (WrittenArgument.bracketFree_listText (a :: rest)).balanced
    constructor
    · simp [argumentText, h.braces]
    · simp [argumentText, h.parens]

theorem pieces_subText {sub : Option Text} (h : ∀ s, sub = some s → IsClosed s) :
    pieces Depth.ground (subText sub) = [subText sub] := by
  cases sub with
  | none => rfl
  | some s =>
    have hspace : pieces Depth.ground [' '] = [[' ']] := rfl
    exact pieces_append_single hspace (pieces_braced (h s rfl).guarded)

theorem balanced_subText {sub : Option Text} (h : ∀ s, sub = some s → IsClosed s) :
    Balanced (subText sub) := by
  cases sub with
  | none => exact BracketFree.nil.balanced
  | some s =>
    have hspace : Balanced [' '] := ⟨rfl, rfl⟩
    exact hspace.append (h s rfl).balanced.braced

/-- No separator of a written field is at ground depth. -/
theorem pieces_text (f : WrittenField) : pieces Depth.ground f.text = [f.text] := by
  refine pieces_append_single (f.named.pieces _) ?_
  rw [f.named.bracketFree.balanced.afterAll]
  refine pieces_append_single (pieces_argumentText f.arguments) ?_
  rw [(balanced_argumentText f.arguments).afterAll]
  exact pieces_subText f.closed

theorem balanced_text (f : WrittenField) : Balanced f.text :=
  f.named.bracketFree.balanced.append
    ((balanced_argumentText f.arguments).append (balanced_subText f.closed))

/-- No blank stands at either end of a written field. -/
theorem isTight_text (f : WrittenField) : Text.IsTight f.text := by
  rw [text]
  cases f.sub with
  | some s =>
    have h : argumentText f.arguments ++ subText (some s)
        = (argumentText f.arguments ++ ' ' :: '{' :: s) ++ ['}'] := by
      simp [subText]
    rw [h]
    exact f.named.isTight.append _ (.singleton (by decide))
  | none =>
    rw [subText, List.append_nil]
    cases f.arguments with
    | nil =>
      rw [argumentText, List.append_nil]
      exact f.named.isTight
    | cons a rest =>
      exact f.named.isTight.append ('(' :: WrittenArgument.listText (a :: rest))
        (.singleton (by decide))

end WrittenField

/-! ## Written documents -/

/-- What stands between two fields. -/
inductive Gap where
  /-- a comma and a space -/
  | comma
  /-- a newline -/
  | newline
  deriving DecidableEq

/-- The text of a gap. -/
def Gap.text : Gap → Text
  | comma => [',', ' ']
  | newline => ['\n']

/-- A gap is a separator with blanks around it. -/
def Gap.joint : Gap → Joint
  | comma => ⟨[], ',', [' '], .nil, by decide, .space⟩
  | newline => ⟨[], '\n', [], .nil, by decide, .nil⟩

theorem Gap.text_joint (g : Gap) : g.joint.text = g.text := by
  cases g <;> rfl

namespace WrittenField

/-- Fields one after the other, with a gap of any kind between each two of them. -/
def joined (gap : Nat → Gap) : List WrittenField → Text
  | [] => []
  | [f] => f.text
  | f :: g :: rest => f.text ++ ((gap 0).text ++ joined (fun n => gap (n + 1)) (g :: rest))

/-- A document made of fields. -/
def document (h : Heading) (gap : Nat → Gap) (fields : List WrittenField) : Text :=
  h.document (' ' :: (joined gap fields ++ [' ']))

theorem joined_eq_rejoined (gap : Nat → Gap) (fields : List WrittenField) :
    joined gap fields = rejoined (fun n => (gap n).joint) (fields.map text) := by
  induction fields generalizing gap with
  | nil => rfl
  | cons f rest ih =>
    cases rest with
    | nil => rfl
    | cons g rest =>
      rw [joined, ih, ← (gap 0).text_joint]
      rfl

/-- Fields that are joined are split again at the gaps and nowhere else. -/
theorem splitSelections_joined (gap : Nat → Gap) (fields : List WrittenField) :
    splitSelections (joined gap fields) = fields.map text := by
  rw [joined_eq_rejoined]
  refine splitSelections_rejoined _ (List.forall_mem_map.mpr fun f _ => ?_) fun t ht => ?_
  · exact splitSelections_of_pieces f.pieces_text f.isTight_text
  · obtain ⟨f, -, rfl⟩ := List.mem_map.mp (List.dropLast_subset _ ht)
    exact f.balanced_text

theorem isTight_joined (gap : Nat → Gap) (f : WrittenField) (rest : List WrittenField) :
    Text.IsTight (joined gap (f :: rest)) := by
  induction rest generalizing gap f with
  | nil => exact f.isTight_text
  | cons g rest ih => exact f.isTight_text.append _ (ih _ g)

/-- The spaces inside the outer braces are no part of the body. -/
theorem trim_joined (gap : Nat → Gap) (fields : List WrittenField) :
    Text.trim (' ' :: (joined gap fields ++ [' '])) = joined gap fields := by
  cases fields with
  | nil => rfl
  | cons f rest => exact Text.trim_append .space (isTight_joined gap f rest) .space

end WrittenField

open WrittenField in
/-- **Round trip**: a document made of fields is classified by its heading, and splitting its body
and reading each unit gives the fields back, in order and without loss. -/
theorem written_document_reads_back (h : Heading) (gap : Nat → Gap) (fields : List WrittenField)
    (hm : MarkerFree (document h gap fields)) :
    Document.parse? (document h gap fields) = some ⟨h.kind, none, none, joined gap fields⟩ ∧
      (splitSelections (joined gap fields)).map FieldExpression.parse?
        = fields.map fun f => some f.expression := by
  constructor
  · have hp := Document.parse?_heading h hm
    rwa [trim_joined] at hp
  · rw [splitSelections_joined, List.map_map]
    apply List.map_congr_left
    intro f _
    exact f.parse?_text

/-- A field with a repeated key, an argument that is no string, separators inside both brackets,
and a stray pair of parentheses. -/
def WrittenField.promotion : WrittenField where
  name := "promoteUser".toList
  named := by decide
  arguments := [
    ⟨"userId".toList, by decide,
      .quoted "a,\nb".toList (by simp [brackets])⟩,
    ⟨"limit".toList, by decide,
      .plain " 3, x".toList (by simp [brackets])⟩,
    ⟨"userId".toList, by decide,
      .quoted "é".toList (by simp [brackets])⟩]
  sub := some " role, repos \x7b ( \x7d )".toList
  closed := by
    intro s hs
    obtain rfl := Option.some.inj hs
    exact ⟨by decide, ⟨by decide, by decide⟩, forall_prefix_iff.mpr (by decide)⟩

open WrittenField in
theorem written_promotions_read_back :
    MarkerFree (document .mutation (fun _ => .newline) [promotion, promotion]) ∧
      Document.parse? (document .mutation (fun _ => .newline) [promotion, promotion])
        = some ⟨.mutation, none, none, joined (fun _ => .newline) [promotion, promotion]⟩ ∧
      (splitSelections (joined (fun _ => .newline) [promotion, promotion])).map
          FieldExpression.parse?
        = [some promotion.expression, some promotion.expression] := by
  have hm : MarkerFree (document .mutation (fun _ => .newline) [promotion, promotion]) :=
    isIntrospection_eq_false_iff.mp (by decide +kernel)
  exact ⟨hm, written_document_reads_back .mutation (fun _ => .newline) [promotion, promotion] hm⟩

end ForgeQuery
