import ForgeQuery.Proofs.OperationHeader

/-!
# The grammar of documents

What a document has to look like, and what it is read as: `Spells` says it without a reader, as a
braced body alone or behind a keyword and a `Header`. The classifier accepts the texts of this
grammar and no others, each as what it spells, and no text spells two documents
(`documents_follow_their_grammar`).

One direction is the reading of a written header (`Header.operation?_text`). For the other every
cut that the reader makes is put back together: blanks in front of what was trimmed, the run of
name characters, the list up to its first closing parenthesis, and the braces around the body.
-/

namespace ForgeQuery

/-! ## The grammar -/

/-- What an operation with this header and a body is read as. -/
def Header.reading (h : Header) (kind : OperationKind) (inner : Text) : Document where
  kind := kind
  name := if h.name.isEmpty then none else some (String.ofList h.name)
  definitions := h.definitions.map String.ofList
  body := Text.trim inner

/-- The text is a document without blanks around it, and this is what it says. Nothing is asked of
the text between the outer braces. -/
inductive Spells : Text → Document → Prop where
  /-- a body alone is a query -/
  | body (inner : Text) : Spells ('{' :: (inner ++ ['}'])) ⟨.query, none, none, Text.trim inner⟩
  /-- a keyword, a header and a body make an operation; where the list is missing, the blanks at
  the back of the header go on those behind the name -/
  | operation (k : Keyword) (h : Header) (inner : Text) :
      Spells (k.document h inner) (h.reading k.kind inner)

/-- A document ends with the brace that closes its body. -/
theorem Spells.getLast? {t : Text} {doc : Document} (h : Spells t doc) : t.getLast? = some '}' := by
  rw [List.getLast?_eq_some_iff]
  cases h with
  | body inner => exact ⟨'{' :: inner, rfl⟩
  | operation k h inner =>
    obtain ⟨front, hfront⟩ := k.exists_document_eq h inner
    exact ⟨front ++ '{' :: inner, by rw [hfront, List.append_assoc, List.cons_append]⟩

/-! ## What the readers of the parts have taken off -/

theorem Text.exists_append_trimStart (t : Text) : ∃ w, IsBlank w ∧ t = w ++ trimStart t :=
  ⟨t.takeWhile isBlank, List.all_eq_true.mp List.all_takeWhile, (trimStart_append t).symm⟩

/-- A list that has been read stands at the start, with blanks behind it. -/
theorem exists_of_parenthesised? {t rest : Text} {definitions : Option Text}
    (h : parenthesised? t = some (definitions, rest)) :
    ∃ back, Text.IsBlank back ∧ t = Header.listText definitions (back ++ rest) ∧
      ∀ v, definitions = some v → ')' ∉ v := by
  rcases parenthesised?_eq_some_iff.mp h with ⟨-, rfl, rfl⟩ | ⟨v, behind, rfl, hv, rfl, rfl⟩
  · refine ⟨[], ?_, rfl, ?_⟩
    · rintro c ⟨⟩
    · rintro v ⟨⟩
  · obtain ⟨back, hback, hbehind⟩ := Text.exists_append_trimStart behind
    refine ⟨back, hback, ?_, ?_⟩
    · rw [← hbehind, Header.listText]
    · rintro w ⟨⟩
      exact hv

namespace Document

theorem body?_eq_some_iff {t body : Text} :
    body? t = some body ↔ ∃ inner, t = '{' :: (inner ++ ['}']) ∧ Text.trim inner = body := by
  simp only [body?, Option.map_eq_some_iff, braced?_eq_some_iff]

/-- What an operation was read from is a header and a braced body. -/
theorem exists_of_operation? {kind : OperationKind} {header : Text} {doc : Document}
    (h : operation? kind header = some doc) :
    ∃ (hd : Header) (inner : Text), header = hd.text inner ∧ hd.reading kind inner = doc := by
  obtain ⟨front, hfront, hheader⟩ := Text.exists_append_trimStart header
  obtain ⟨middle, hmiddle, hbehind⟩ :=
    Text.exists_append_trimStart (Text.takeName (Text.trimStart header)).2
  -- the two parts that can be missing, in the order in which they are read
  obtain ⟨⟨definitions, rest⟩, hlist, h⟩ := Option.bind_eq_some_iff.mp h
  obtain ⟨body, hbody, h⟩ := Option.bind_eq_some_iff.mp h
  obtain ⟨back, hback, hopen, hclosed⟩ := exists_of_parenthesised?
    (t := Text.trimStart (Text.takeName (Text.trimStart header)).2) hlist
  obtain ⟨inner, rfl, rfl⟩ := body?_eq_some_iff.mp hbody
  let hd : Header :=
    { front
      name := (Text.takeName (Text.trimStart header)).1
      middle
      definitions
      back
      front_isBlank := hfront
      name_isNamed := List.all_eq_true.mp List.all_takeWhile
      middle_isBlank := hmiddle
      definitions_isOpen := hclosed
      back_isBlank := hback }
  refine ⟨hd, inner, ?_, Option.some.inj h⟩
  calc header
      = front ++ Text.trimStart header := hheader
    _ = front ++ ((Text.takeName (Text.trimStart header)).1
          ++ (Text.takeName (Text.trimStart header)).2) := by rw [Text.takeName_append]
    _ = hd.text inner := by rw [hbehind, hopen, Header.text]

theorem operation?_eq_some_iff {kind : OperationKind} {header : Text} {doc : Document} :
    operation? kind header = some doc ↔
      ∃ (hd : Header) (inner : Text), header = hd.text inner ∧ hd.reading kind inner = doc := by
  constructor
  · exact exists_of_operation?
  · rintro ⟨hd, inner, rfl, rfl⟩
    exact hd.operation?_text inner kind

/-! ## The classifier -/

/-- A text is an operation of the keyword that it starts with, or has none of the keywords. -/
theorem classify?_cases (t : Text) :
    (∃ (k : Keyword) (header : Text), t = k.word ++ header ∧
        classify? t = operation? k.kind header) ∨
      classify? t = (body? t).map fun body => ⟨.query, none, none, body⟩ := by
  rw [classify?]
  split
  · next header hword =>
    exact Or.inl ⟨.mutation, header, (List.isPrefixOf?_eq_some_iff_append_eq.mp hword).symm, rfl⟩
  · split
    · next header hword =>
      exact Or.inl ⟨.query, header, (List.isPrefixOf?_eq_some_iff_append_eq.mp hword).symm, rfl⟩
    · exact Or.inr rfl

/-- A text in braces starts with no keyword. -/
theorem classify?_braces (inner : Text) :
    classify? ('{' :: (inner ++ ['}'])) = some ⟨.query, none, none, Text.trim inner⟩ := by
  have hclassify : classify? ('{' :: (inner ++ ['}']))
      = (body? ('{' :: (inner ++ ['}']))).map fun body => ⟨.query, none, none, body⟩ := rfl
  rw [hclassify, body?_braces, Option.map_some]

/-- **The classifier accepts what the grammar has**, as the grammar has it. -/
theorem classify?_eq_some_iff {t : Text} {doc : Document} :
    classify? t = some doc ↔ Spells t doc := by
  constructor
  · intro h
    rcases classify?_cases t with ⟨k, header, rfl, hclassify⟩ | hclassify
    · rw [hclassify] at h
      obtain ⟨hd, inner, rfl, rfl⟩ := operation?_eq_some_iff.mp h
      exact .operation k hd inner
    · rw [hclassify] at h
      obtain ⟨body, hbody, rfl⟩ := Option.map_eq_some_iff.mp h
      obtain ⟨inner, rfl, rfl⟩ := body?_eq_some_iff.mp hbody
      exact .body inner
  · rintro (inner | ⟨k, hd, inner⟩)
    · exact classify?_braces inner
    · rw [Keyword.document, k.classify?_word]
      exact operation?_eq_some_iff.mpr ⟨hd, inner, rfl, rfl⟩

end Document

/-- No text spells two documents. -/
theorem Spells.unique {t : Text} {doc doc' : Document} (h : Spells t doc) (h' : Spells t doc') :
    doc = doc' := by
  have hclassify := Document.classify?_eq_some_iff.mpr h
  rw [Document.classify?_eq_some_iff.mpr h'] at hclassify
  exact (Option.some.inj hclassify).symm

theorem markerFree_iff {t : Text} :
    MarkerFree t ↔ ¬ ("__schema".toList <:+: t ∨ "__type".toList <:+: t) := by
  simp [MarkerFree, Document.introspectionMarkers]

/-- **Documents follow their grammar.** A text that mentions a marker is an introspection document
whatever else it is. Of the others, those that spell a document when they are trimmed are read as
that document, which is the only one they spell, and the rest are rejected. -/
theorem documents_follow_their_grammar (text : Text) :
    let t := Text.trim text
    let marked := "__schema".toList <:+: t ∨ "__type".toList <:+: t
    (marked → Document.parse? text = some ⟨.introspection, none, none, []⟩) ∧
      (¬ marked → ∀ doc, Document.parse? text = some doc ↔ Spells t doc) ∧
      (¬ marked → (∀ doc, ¬ Spells t doc) → Document.parse? text = none) ∧
      ∀ doc doc', Spells t doc → Spells t doc' → doc = doc' := by
  intro t marked
  have hmarked (h : marked) : Document.isIntrospection t = true := by
    rw [← Bool.not_eq_false, isIntrospection_eq_false_iff, markerFree_iff, not_not]
    exact h
  have hparse (h : ¬ marked) : Document.parse? text = Document.classify? t := by
    have hi := isIntrospection_eq_false_iff.mpr (markerFree_iff.mpr h)
    simp only [Document.parse?, t, hi, Bool.false_eq_true, if_false]
  refine ⟨fun h => ?_, fun h doc => ?_, fun h hno => ?_, fun doc doc' => Spells.unique⟩
  · simp only [Document.parse?, t, hmarked h, if_true]
  · rw [hparse h]
    exact Document.classify?_eq_some_iff
  · rw [hparse h, Option.eq_none_iff_forall_ne_some]
    intro doc hdoc
    exact hno doc (Document.classify?_eq_some_iff.mp hdoc)

/-- A field whose name goes on behind a marker, a keyword that runs into a name with an open brace
in its list and one brace too many in its body, and an operation with a brace behind it. -/
theorem stray_braces_are_read :
    Document.parse? "\x7b __typename \x7d".toList = some ⟨.introspection, none, none, []⟩ ∧
      Document.parse? " queryAll($id: \x7b)\n\x7b me\x7d \x7d ".toList
        = some ⟨.query, some "All", some "$id: \x7b", "me\x7d".toList⟩ ∧
      Document.parse? "query All \x7b me \x7d \x7b".toList = none := by
  refine ⟨?_, ?_, ?_⟩
  · refine (documents_follow_their_grammar _).1 (Or.inr ?_)
    rw [← Text.mentions_iff]
    decide +kernel
  · let h : Header :=
      { front := []
        name := "All".toList
        middle := []
        definitions := some "$id: \x7b".toList
        back := ['\n']
        front_isBlank := by decide
        name_isNamed := List.all_eq_true.mp (by decide)
        middle_isBlank := by decide
        definitions_isOpen := by
          rintro v ⟨⟩
          decide
        back_isBlank := by decide }
    refine ((documents_follow_their_grammar _).2.1 ?_ _).mpr ?_
    · exact markerFree_iff.mp (isIntrospection_eq_false_iff.mp (by decide +kernel))
    · exact Spells.operation .query h " me\x7d ".toList
  · refine (documents_follow_their_grammar _).2.2.1 ?_ fun doc hdoc => ?_
    · exact markerFree_iff.mp (isIntrospection_eq_false_iff.mp (by decide +kernel))
    · exact absurd hdoc.getLast? (by decide +kernel)

end ForgeQuery
