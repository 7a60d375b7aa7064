import ForgeQuery.Proofs.Reading
import ForgeQuery.Query.Document

/-!
# Documents with a known heading

A document that is written as a heading and a braced body is classified by its heading, and its
body is what stands between the braces, trimmed (`Document.parse?_heading`), unless it mentions an
introspection marker. Markers hold letters and underscores alone, so none of them reaches over any
other character (`MarkerFree.append_cons`).
-/

namespace ForgeQuery

/-! ## Markers -/

/-- The text mentions no introspection marker. -/
def MarkerFree (t : Text) : Prop := ∀ m ∈ Document.introspectionMarkers, ¬ m <:+: t

theorem isIntrospection_eq_false_iff {t : Text} :
    Document.isIntrospection t = false ↔ MarkerFree t := by
  rw [Document.isIntrospection, List.any_eq_false]
  refine forall_congr' fun m => forall_congr' fun _ => ?_
  rw [Text.mentions_iff]

/-- A word without the character `c` does not reach over a `c`. -/
theorem infix_of_infix_append_cons {c : Char} {m a b : Text} (hc : c ∉ m)
    (h : m <:+: a ++ c :: b) : m <:+: a ∨ m <:+: b := by
  obtain ⟨s, t, h⟩ := h
  rcases List.append_eq_append_iff.mp h with ⟨x, h₁, -⟩ | ⟨x, h₁, h₂⟩
  · exact Or.inl ⟨s, x, h₁.symm⟩
  · cases x with
    | nil => exact Or.inl ⟨s, [], by rw [List.append_nil, h₁, List.append_nil]⟩
    | cons d x =>
      obtain ⟨rfl, hb⟩ := List.cons.inj h₂
      -- the word ends behind `c`, so it has to begin there too
      rcases List.append_eq_append_iff.mp h₁ with ⟨y, -, hm⟩ | ⟨y, -, hy⟩
      · exact absurd (hm ▸ List.mem_append_right _ List.mem_cons_self) hc
      · cases y with
        | nil =>
          rw [List.nil_append] at hy
          exact absurd (hy ▸ List.mem_cons_self) hc
        | cons e y =>
          obtain ⟨-, hx⟩ := List.cons.inj hy
          refine Or.inr ⟨y, t, ?_⟩
          rw [hb, hx]
          rfl

/-- The characters of the markers. -/
def isMarkerChar (c : Char) : Bool := Document.introspectionMarkers.any fun m => m.contains c

theorem not_mem_of_isMarkerChar {c : Char} (hc : isMarkerChar c = false) {m : Text}
    (hm : m ∈ Document.introspectionMarkers) : c ∉ m := by
  have h := List.any_eq_false.mp hc m hm
  rwa [List.contains_iff_mem] at h

/-- Two texts without markers make one, when a character of no marker stands between them. -/
theorem MarkerFree.append_cons {a b : Text} (ha : MarkerFree a) {c : Char}
    (hc : isMarkerChar c = false) (hb : MarkerFree b) : MarkerFree (a ++ c :: b) := by
  intro m hm h
  rcases infix_of_infix_append_cons (not_mem_of_isMarkerChar hc hm) h with h | h
  · exact ha m hm h
  · exact hb m hm h

theorem markerFree_nil : MarkerFree [] := by
  intro m hm h
  rw [List.infix_nil.mp h] at hm
  exact absurd hm (by decide)

/-! ## Headings -/

/-- What stands in front of the braces of a document. -/
inductive Heading where
  /-- nothing -/
  | bare
  /-- the keyword of queries -/
  | query
  /-- the keyword of mutations -/
  | mutation
  deriving DecidableEq

namespace Heading

/-- The kind of operation that a heading announces. -/
def kind : Heading → OperationKind
  | bare | query => .query
  | mutation => .mutation

/-- The text of a heading, with a space behind a keyword. -/
def text : Heading → Text
  | bare => []
  | query => "query ".toList
  | mutation => "mutation ".toList

/-- A document with the heading in front of a braced body. -/
def document (h : Heading) (body : Text) : Text := h.text ++ '{' :: (body ++ ['}'])

theorem markerFree_text (h : Heading) : MarkerFree h.text := by
  intro m hm
  rw [← Text.mentions_iff]
  revert m
  cases h <;> decide

/-- A document mentions a marker only inside its braces. -/
theorem markerFree_document (h : Heading) {body : Text} (hb : MarkerFree body) :
    MarkerFree (h.document body) :=
  h.markerFree_text.append_cons (by decide) (hb.append_cons (by decide) markerFree_nil)

theorem isTight_document (h : Heading) (body : Text) : Text.IsTight (h.document body) := by
  constructor
  · cases h
    · exact ⟨'{', body ++ ['}'], rfl, by decide⟩
    · exact ⟨'q', "uery ".toList ++ '{' :: (body ++ ['}']), rfl, by decide⟩
    · exact ⟨'m', "utation ".toList ++ '{' :: (body ++ ['}']), rfl, by decide⟩
  · exact ⟨h.text ++ '{' :: body, '}', by rw [document, List.append_assoc, List.cons_append],
      by decide⟩

end Heading

namespace Document

theorem body?_braces (body : Text) : body? ('{' :: (body ++ ['}'])) = some (Text.trim body) := by
  rw [body?, braced?, Text.stripLast?_append, Option.map_some]

/-- Behind a keyword, a space and a braced body make an operation without name and definitions. -/
theorem operation?_braces (kind : OperationKind) (body : Text) :
    operation? kind (' ' :: '{' :: (body ++ ['}'])) = some ⟨kind, none, none, Text.trim body⟩ := by
  have hstart : Text.trimStart (' ' :: '{' :: (body ++ ['}'])) = '{' :: (body ++ ['}']) := rfl
  have hname : Text.takeName ('{' :: (body ++ ['}'])) = ([], '{' :: (body ++ ['}'])) := rfl
  have hlist : parenthesised? (Text.trimStart ('{' :: (body ++ ['}'])))
      = some (none, '{' :: (body ++ ['}'])) := rfl
  rw [operation?, hstart, hname]
  simp only [hlist, Option.bind_eq_bind, Option.bind_some, body?_braces]
  rfl

/-- A document is classified by its heading, and its body is what stands between the braces. -/
theorem parse?_heading (h : Heading) {body : Text} (hm : MarkerFree (h.document body)) :
    parse? (h.document body) = some ⟨h.kind, none, none, Text.trim body⟩ := by
  have hi := isIntrospection_eq_false_iff.mpr hm
  rw [parse?, Text.trim_of_isTight (h.isTight_document body)]
  simp only [hi, Bool.false_eq_true, if_false]
  cases h with
  | bare =>
    have hc : classify? (Heading.bare.document body)
        = (body? ('{' :: (body ++ ['}']))).map fun b => ⟨.query, none, none, b⟩ := rfl
    rw [hc, body?_braces]
    rfl
  | query => exact operation?_braces .query body
  | mutation => exact operation?_braces .mutation body

end Document

end ForgeQuery
