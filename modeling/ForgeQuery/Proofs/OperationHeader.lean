import ForgeQuery.Proofs.Cutting
import ForgeQuery.Proofs.Units
import Mathlib.Data.List.DropRight

/-!
# Headers of operations

Between its keyword and its body an operation may have a name and a list of variable definitions,
with blanks around both of them. This `Header` is read for the reports alone: an operation comes to
the same with any header and with none, for a query also without the keyword, and whatever else the
request holds (`headers_have_no_effect`).

All that has to be shown is that the reader finds the body where it begins
(`Keyword.parse?_document`). A name ends in front of the blanks, the list or the body; a list ends
at its first closing parenthesis, whatever stands in front of that; and nothing is asked of the body
itself.
-/

namespace ForgeQuery

/-! ## Names between blanks -/

namespace Text

theorem trimStart_trimStart (t : Text) : trimStart (trimStart t) = trimStart t :=
  List.dropWhile_idempotent isBlank t

/-- A name, possibly an empty one, is taken from between blanks, if what is left behind the blanks
does not go on with a name character. -/
theorem takeName_trimStart {gap name t : Text} (hgap : IsBlank gap)
    (hname : ∀ c ∈ name, isNameChar c = true)
    (ht : ∀ c tail, trimStart t = c :: tail → isNameChar c = false) :
    ∃ rest, takeName (trimStart (gap ++ (name ++ t))) = (name, rest) ∧
      trimStart rest = trimStart t := by
  rw [trimStart_append_left hgap]
  cases name with
  | nil => exact ⟨trimStart t, takeName_of_named hname ht, trimStart_trimStart t⟩
  | cons c name =>
    have hc : isBlank c = false := isBlank_of_isNameChar (hname c List.mem_cons_self)
    refine ⟨t, ?_, rfl⟩
    rw [List.cons_append, trimStart_of_head hc, ← List.cons_append]
    refine takeName_of_named hname fun d tail hd => ?_
    -- a name character would still be there behind the blanks
    by_contra hno
    have hd' : isNameChar d = true := (Bool.not_eq_false _).mp hno
    refine hno (ht d tail ?_)
    rw [hd, trimStart_of_head (isBlank_of_isNameChar hd')]

end Text

/-! ## Headers -/

/-- What stands between the keyword and the body of an operation. -/
structure Header where
  /-- the blanks behind the keyword, if any -/
  front : Text
  /-- the name, empty when there is none -/
  name : Text
  /-- the blanks behind the name, if any -/
  middle : Text
  /-- the text between the parentheses of the variable definitions, if there are any -/
  definitions : Option Text
  /-- the blanks in front of the body, if any -/
  back : Text
  /-- blanks stand behind the keyword -/
  front_isBlank : Text.IsBlank front
  /-- the name holds name characters alone -/
  name_isNamed : ∀ c ∈ name, Text.isNameChar c = true
  /-- blanks stand behind the name -/
  middle_isBlank : Text.IsBlank middle
  /-- the list is not closed before its end -/
  definitions_isOpen : ∀ v, definitions = some v → ')' ∉ v
  /-- blanks stand in front of the body -/
  back_isBlank : Text.IsBlank back

namespace Header

/-- The list of variable definitions, if there is one, with what stands behind it. -/
def listText (definitions : Option Text) (behind : Text) : Text :=
  match definitions with
  | none => behind
  | some v => '(' :: (v ++ ')' :: behind)

/-- A body in braces behind a header. -/
def text (h : Header) (body : Text) : Text :=
  h.front ++ (h.name ++ (h.middle ++ listText h.definitions (h.back ++ '{' :: (body ++ ['}']))))

variable (h : Header) (body : Text)

theorem trimStart_back :
    Text.trimStart (h.back ++ '{' :: (body ++ ['}'])) = '{' :: (body ++ ['}']) := by
  rw [Text.trimStart_append_left h.back_isBlank, Text.trimStart_of_head (by decide)]

/-- Behind the name the list is read whole, and the body is left. -/
theorem parenthesised?_listText :
    parenthesised? (Text.trimStart (h.middle ++
        listText h.definitions (h.back ++ '{' :: (body ++ ['}']))))
      = some (h.definitions, '{' :: (body ++ ['}'])) := by
  rw [Text.trimStart_append_left h.middle_isBlank]
  cases hd : h.definitions with
  | none =>
    rw [listText, h.trimStart_back]
    rfl
  | some v =>
    have hsplit (behind : Text) : Text.splitFirst? ')' (v ++ ')' :: behind) = some (v, behind) :=
      Text.splitFirst?_eq_some_iff.mpr ⟨rfl, h.definitions_isOpen v hd⟩
    rw [listText, Text.trimStart_of_head (by decide), parenthesised?, hsplit, Option.map_some,
      h.trimStart_back]

/-- No name character is next behind the name and the blanks that follow it. -/
theorem isNameChar_behind_name {c : Char} {tail : Text}
    (hc : Text.trimStart (h.middle ++ listText h.definitions (h.back ++ '{' :: (body ++ ['}'])))
      = c :: tail) : Text.isNameChar c = false := by
  rw [Text.trimStart_append_left h.middle_isBlank] at hc
  cases hd : h.definitions with
  | none =>
    rw [hd, listText, h.trimStart_back] at hc
    obtain ⟨rfl, -⟩ := List.cons.inj hc
    decide
  | some v =>
    rw [hd, listText, Text.trimStart_of_head (by decide)] at hc
    obtain ⟨rfl, -⟩ := List.cons.inj hc
    decide

/-- **The body is found behind every header.** -/
theorem operation?_text (kind : OperationKind) :
    Document.operation? kind (h.text body)
      = some ⟨kind, if h.name.isEmpty then none else some (String.ofList h.name),
          h.definitions.map String.ofList, Text.trim body⟩ := by
  obtain ⟨rest, hname, hrest⟩ := Text.takeName_trimStart h.front_isBlank h.name_isNamed
    fun c tail => h.isNameChar_behind_name body
  rw [Document.operation?, text, hname]
  simp only [hrest, h.parenthesised?_listText body, Option.bind_eq_bind, Option.bind_some,
    Document.body?_braces]

end Header

/-! ## Operations with a header -/

/-- The keyword in front of an operation. -/
inductive Keyword where
  /-- the keyword of queries -/
  | query
  /-- the keyword of mutations -/
  | mutation
  deriving DecidableEq

namespace Keyword

/-- The keyword itself. -/
def word : Keyword → Text
  | query => "query".toList
  | mutation => "mutation".toList

/-- The kind of operation that a keyword announces. -/
def kind : Keyword → OperationKind
  | query => .query
  | mutation => .mutation

/-- The shortest heading of the operations of a keyword. -/
def heading : Keyword → Heading
  | query => .bare
  | mutation => .mutation

/-- An operation with a header. -/
def document (k : Keyword) (h : Header) (body : Text) : Text := k.word ++ h.text body

variable (k : Keyword) (h : Header) (body : Text)

theorem kind_heading : k.heading.kind = k.kind := by
  cases k <;> rfl

/-- An operation ends with its braced body. -/
theorem exists_document_eq :
    ∃ front, k.document h body = front ++ '{' :: (body ++ ['}']) := by
  refine ⟨k.word ++ (h.front ++ (h.name ++ (h.middle ++ Header.listText h.definitions h.back))), ?_⟩
  rw [document, Header.text]
  cases h.definitions with
  | none => simp only [Header.listText, List.append_assoc]
  | some v => simp only [Header.listText, List.append_assoc, List.cons_append]

theorem isTight_document : Text.IsTight (k.document h body) := by
  constructor
  · cases k
    · exact ⟨'q', "uery".toList ++ h.text body, rfl, by decide⟩
    · exact ⟨'m', "utation".toList ++ h.text body, rfl, by decide⟩
  · obtain ⟨front, hfront⟩ := k.exists_document_eq h body
    refine ⟨front ++ '{' :: body, '}', ?_, by decide⟩
    rw [hfront, List.append_assoc, List.cons_append]

/-- A body mentions no marker if the operation does not. -/
theorem markerFree_body (hm : MarkerFree (k.document h body)) : MarkerFree body := by
  obtain ⟨front, hfront⟩ := k.exists_document_eq h body
  refine hm.of_infix ⟨front ++ ['{'], ['}'], ?_⟩
  rw [hfront, List.append_assoc, List.append_assoc]
  rfl

theorem classify?_word (header : Text) :
    Document.classify? (k.word ++ header) = Document.operation? k.kind header := by
  cases k <;> rfl

/-- An operation with a header is classified by its keyword. -/
theorem parse?_document (hm : MarkerFree (k.document h body)) :
    Document.parse? (k.document h body)
      = some ⟨k.kind, if h.name.isEmpty then none else some (String.ofList h.name),
          h.definitions.map String.ofList, Text.trim body⟩ := by
  have hi := isIntrospection_eq_false_iff.mpr hm
  rw [Document.parse?, Text.trim_of_isTight (k.isTight_document h body)]
  simp only [hi, Bool.false_eq_true, if_false]
  rw [document, k.classify?_word, h.operation?_text]

end Keyword

/-! ## Execution -/

/-- A request carries the document that its text is read as. -/
theorem Request.document_of_parse? {r : Request} {t : Text} {doc : Document}
    (hquery : r.query = some (String.ofList t)) (hdoc : Document.parse? t = some doc) :
    r.document = .ok doc := by
  have hne : String.ofList t ≠ "" := by
    intro he
    have hnil : t = [] := by
      rw [← String.toList_ofList (l := t), he]
      rfl
    rw [hnil] at hdoc
    cases hdoc
  unfold Request.document
  simp only [hquery, if_neg hne, String.toList_ofList, hdoc]

/-- Of a document nothing but its kind and its body makes a difference. -/
theorem tryExecute_congr_document {r r' : Request} {doc doc' : Document}
    (hdoc : r.document = .ok doc) (hdoc' : r'.document = .ok doc') (hkind : doc.kind = doc'.kind)
    (hbody : doc.body = doc'.body) (policy : Policy) (s : Store) (caller : Option Caller) :
    (tryExecute policy s r caller).result = (tryExecute policy s r' caller).result ∧
      (tryExecute policy s r caller).store = (tryExecute policy s r' caller).store := by
  have houtcome : r.outcome ⟨policy, caller⟩ s = r'.outcome ⟨policy, caller⟩ s := by
    simp only [Request.outcome, hdoc, hdoc', Document.outcome, Document.calls, hkind, hbody]
  rw [tryExecute_result, tryExecute_store, tryExecute_result, tryExecute_store, houtcome]
  exact ⟨rfl, rfl⟩

/-- **Headers have no effect.** A body comes to the same, with the same store behind it, whether it
stands behind a keyword and any header or behind the shortest heading of the keyword's operations,
whoever asks under whatever policy, and whatever the requests hold besides their texts. -/
theorem headers_have_no_effect (k : Keyword) (h : Header) {body : Text}
    (hm : MarkerFree (k.document h body)) {r r' : Request}
    (hr : r.query = some (String.ofList (k.document h body)) ∨
      r.query = some (String.ofList (k.heading.document body)))
    (hr' : r'.query = some (String.ofList (k.document h body)) ∨
      r'.query = some (String.ofList (k.heading.document body)))
    (policy : Policy) (s : Store) (caller : Option Caller) :
    (tryExecute policy s r caller).result = (tryExecute policy s r' caller).result ∧
      (tryExecute policy s r caller).store = (tryExecute policy s r' caller).store := by
  have hshort : MarkerFree (k.heading.document body) :=
    k.heading.markerFree_document (k.markerFree_body h body hm)
  have hdocument {q : Request} (hq : q.query = some (String.ofList (k.document h body)) ∨
      q.query = some (String.ofList (k.heading.document body))) :
      ∃ doc, q.document = .ok doc ∧ doc.kind = k.kind ∧ doc.body = Text.trim body := by
    rcases hq with hq | hq
    · exact ⟨_, q.document_of_parse? hq (k.parse?_document h body hm), rfl, rfl⟩
    · exact ⟨_, q.document_of_parse? hq (Document.parse?_heading k.heading hshort),
        k.kind_heading, rfl⟩
  obtain ⟨doc, hdoc, hkind, hbody⟩ := hdocument hr
  obtain ⟨doc', hdoc', hkind', hbody'⟩ := hdocument hr'
  exact tryExecute_congr_document hdoc hdoc' (hkind.trans hkind'.symm) (hbody.trans hbody'.symm)
    policy s caller

/-- A promotion by a request with a name, an open brace in its definitions, variables and a body of
too many braces, and the same by a bare one: both answer the same and take the role away. -/
theorem named_promotion_is_a_promotion :
    let s := Store.ofRecords [⟨"u1", "dev", "pw", "dev@forge", some "developer", []⟩] []
    let dev : Option Caller := some ⟨"u1", some "developer", []⟩
    let named : Request := ⟨some ("mutation Promote($id: \x7b\n) \x7b promoteUser(userId: \"u1\")\n"
      ++ "me \x7d \x7d"), some "Other", .ofList [("id", .null)]⟩
    let bare := Request.ofQuery "mutation \x7b promoteUser(userId: \"u1\")\nme \x7d \x7d"
    (tryExecute .permissive s named dev).result = (tryExecute .permissive s bare dev).result ∧
      (tryExecute .permissive s named dev).store = (tryExecute .permissive s bare dev).store ∧
      ((tryExecute .permissive s bare dev).store.user? "u1").map User.role = some none := by
  intro s dev named bare
  let h : Header :=
    { front := [' ']
      name := "Promote".toList
      middle := []
      definitions := some "$id: \x7b\n".toList
      back := [' ']
      front_isBlank := by decide
      name_isNamed := List.all_eq_true.mp (by decide)
      middle_isBlank := by decide
      definitions_isOpen := by
        rintro v ⟨⟩
        decide
      back_isBlank := by decide }
  let body := " promoteUser(userId: \"u1\")\nme \x7d ".toList
  have hm : MarkerFree (Keyword.mutation.document h body) :=
    isIntrospection_eq_false_iff.mp (by decide +kernel)
  have hnamed : named.query = some (String.ofList (Keyword.mutation.document h body)) := by
    decide +kernel
  have hbare : bare.query = some (String.ofList (Keyword.mutation.heading.document body)) := by
    decide +kernel
  obtain ⟨hresult, hstore⟩ := headers_have_no_effect .mutation h hm (Or.inl hnamed) (Or.inr hbare)
    .permissive s dev
  exact ⟨hresult, hstore, by decide +kernel⟩

end ForgeQuery
