import ForgeQuery.Proofs.Heading
import ForgeQuery.Proofs.Splitting
import Mathlib.Data.List.Basic

/-!
# Units by themselves

A unit of a body has no cut in it, so it is a body with this unit alone (`splitSelections_of_mem`).
It is a part of the body, and the body is a part of the document (`infix_of_mem_splitSelections`,
`Document.infix_of_classify?`); hence a unit of a document that mentions no introspection marker
does not mention one either, and behind any heading it makes a document of its own.
-/

namespace ForgeQuery

/-! ## A unit and the body that it comes from -/

theorem Text.trim_infix (t : Text) : Text.trim t <:+: t := by
  obtain ⟨w, -, h⟩ := Text.exists_trimEnd_append (Text.trimStart t)
  have hend : Text.trim t <+: Text.trimStart t := ⟨w, h.symm⟩
  have hstart : Text.trimStart t <:+ t := List.dropWhile_suffix _
  exact hend.isInfix.trans hstart.isInfix

/-- A piece is a part of the text it is cut from, and has no cut in it. The first piece starts at
the depth at which the text does, any other one at ground depth. -/
theorem pieces_eq_cons {d : Depth} {t p : Text} {ps : List Text} (h : pieces d t = p :: ps) :
    (p <+: t ∧ pieces d p = [p]) ∧ ∀ q ∈ ps, q <:+: t ∧ pieces Depth.ground q = [q] := by
  induction t generalizing d p ps with
  | nil =>
    obtain ⟨rfl, rfl⟩ := List.cons.inj h
    exact ⟨⟨List.nil_prefix, rfl⟩, fun q hq => absurd hq List.not_mem_nil⟩
  | cons c t ih =>
    by_cases hc : isSeparator c = true ∧ d = Depth.ground
    · rw [pieces_cons_of_cut hc, hc.2] at h
      obtain ⟨rfl, rfl⟩ := List.cons.inj h
      refine ⟨⟨List.nil_prefix, rfl⟩, fun q hq => ?_⟩
      -- the first piece behind the cut starts at ground depth like the others
      obtain ⟨p, ps, hp⟩ := List.exists_cons_of_ne_nil (pieces_ne_nil Depth.ground t)
      obtain ⟨⟨hfront, hsingle⟩, hothers⟩ := ih hp
      rw [hp] at hq
      rcases List.mem_cons.mp hq with rfl | hq
      · exact ⟨List.infix_cons hfront.isInfix, hsingle⟩
      · exact ⟨List.infix_cons (hothers q hq).1, (hothers q hq).2⟩
    · rw [pieces_cons_of_not_cut hc] at h
      obtain ⟨p', ps', hp⟩ := List.exists_cons_of_ne_nil (pieces_ne_nil (d.after c) t)
      obtain ⟨⟨hfront, hsingle⟩, hothers⟩ := ih hp
      rw [hp, List.modifyHead_cons] at h
      obtain ⟨rfl, rfl⟩ := List.cons.inj h
      refine ⟨⟨List.cons_prefix_cons.mpr ⟨rfl, hfront⟩, ?_⟩, fun q hq => ?_⟩
      · rw [pieces_cons_of_not_cut hc, hsingle, List.modifyHead_cons]
      · exact ⟨List.infix_cons (hothers q hq).1, (hothers q hq).2⟩

theorem of_mem_pieces {t p : Text} (h : p ∈ pieces Depth.ground t) :
    p <:+: t ∧ pieces Depth.ground p = [p] := by
  obtain ⟨q, qs, hq⟩ := List.exists_cons_of_ne_nil (pieces_ne_nil Depth.ground t)
  obtain ⟨⟨hfront, hsingle⟩, hothers⟩ := pieces_eq_cons hq
  rw [hq] at h
  rcases List.mem_cons.mp h with rfl | h
  · exact ⟨hfront.isInfix, hsingle⟩
  · exact hothers p h

/-- **A unit of a body is a body with this unit alone.** -/
theorem splitSelections_of_mem {body unit : Text} (h : unit ∈ splitSelections body) :
    splitSelections unit = [unit] := by
  have hne : unit ≠ [] := ne_nil_of_mem_splitSelections h
  obtain ⟨p, hp, rfl⟩ := List.mem_map.mp (List.mem_filter.mp h).1
  rw [splitSelections_trim, splitSelections, (of_mem_pieces hp).2, List.map_singleton,
    List.filter_cons_of_pos (by simpa using hne), List.filter_nil]

theorem infix_of_mem_splitSelections {body unit : Text} (h : unit ∈ splitSelections body) :
    unit <:+: body := by
  obtain ⟨p, hp, rfl⟩ := List.mem_map.mp (List.mem_filter.mp h).1
  exact (Text.trim_infix p).trans (of_mem_pieces hp).1

/-! ## A body and the document that it comes from -/

theorem suffix_of_parenthesised? {t rest : Text} {list : Option Text}
    (h : parenthesised? t = some (list, rest)) : rest <:+ t := by
  rcases parenthesised?_eq_some_iff.mp h with ⟨-, -, rfl⟩ | ⟨v, behind, rfl, -, -, rfl⟩
  · exact List.suffix_rfl
  · have hinside : behind <:+ v ++ ')' :: behind := ⟨v ++ [')'], by simp⟩
    exact ((List.dropWhile_suffix _).trans hinside).trans (List.suffix_cons _ _)

namespace Document

theorem infix_of_body? {t body : Text} (h : body? t = some body) : body <:+: t := by
  obtain ⟨inner, hinner, rfl⟩ := Option.map_eq_some_iff.mp h
  obtain rfl := braced?_eq_some_iff.mp hinner
  exact (Text.trim_infix inner).trans ⟨['{'], ['}'], rfl⟩

theorem infix_of_operation? {kind : OperationKind} {header : Text} {doc : Document}
    (h : operation? kind header = some doc) : doc.body <:+: header := by
  unfold operation? at h
  obtain ⟨⟨list, rest⟩, hlist, h⟩ := Option.bind_eq_some_iff.mp h
  obtain ⟨body, hbody, h⟩ := Option.bind_eq_some_iff.mp h
  obtain rfl := Option.some.inj h
  have hrest : rest <:+ header := by
    refine (suffix_of_parenthesised? hlist).trans ((List.dropWhile_suffix _).trans ?_)
    exact (List.dropWhile_suffix _).trans (List.dropWhile_suffix _)
  exact (infix_of_body? hbody).trans hrest.isInfix

theorem infix_of_classify? {t : Text} {doc : Document} (h : classify? t = some doc) :
    doc.body <:+: t := by
  have hkeyword {word header : Text} (hw : word.isPrefixOf? t = some header) : header <:+ t :=
    ⟨word, List.isPrefixOf?_eq_some_iff_append_eq.mp hw⟩
  unfold classify? at h
  split at h
  · next header hw => exact (infix_of_operation? h).trans (hkeyword hw).isInfix
  · split at h
    · next header hw => exact (infix_of_operation? h).trans (hkeyword hw).isInfix
    · obtain ⟨body, hbody, rfl⟩ := Option.map_eq_some_iff.mp h
      exact infix_of_body? hbody

end Document

theorem MarkerFree.of_infix {t u : Text} (h : MarkerFree t) (hu : u <:+: t) : MarkerFree u :=
  fun m hm hmu => h m hm (hmu.trans hu)

/-- The body of a query or of a mutation mentions no marker. -/
theorem markerFree_body {t : Text} {doc : Document} (h : Document.parse? t = some doc)
    (hkind : doc.kind ≠ .introspection) : MarkerFree doc.body := by
  unfold Document.parse? at h
  dsimp only at h
  split at h
  · obtain rfl := Option.some.inj h
    exact absurd rfl hkind
  · next hno =>
    have hfree := isIntrospection_eq_false_iff.mp (Bool.eq_false_iff.mpr hno)
    exact hfree.of_infix (Document.infix_of_classify? h)

end ForgeQuery
