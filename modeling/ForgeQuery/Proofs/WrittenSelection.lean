import ForgeQuery.Proofs.Projecting
import ForgeQuery.Proofs.WrittenField

/-!
# Written selections are mirrored

A sub-selection that is written as one writes it, names with commas or newlines between them, is
mirrored by the answer: what is asked for is what comes, in the order of first mention
(`written_selections_are_mirrored`). Blanks and empty items make no difference, and neither do names
that are no fields of the type.

A name may carry a nested selection. Two readers have to agree on where it ends: the splitter counts
brackets and does not look at lines, and the cut looks at one line and does not count. In a nested
selection that is balanced, closes no brace early and is on one line (`NestedBlock`), both find the
same closing brace, whatever else stands in it.
-/

namespace ForgeQuery

/-! ## Items -/

/-- A nested selection in braces behind a name. -/
structure NestedBlock where
  /-- the blanks in front of the opening brace -/
  gap : Text
  /-- what stands between the braces, be it nothing -/
  inner : Text
  /-- blanks stand in front -/
  gap_isBlank : Text.IsBlank gap
  /-- none of them is a newline -/
  newline_not_mem_gap : '\n' ∉ gap
  /-- it is all on one line -/
  oneLine : ∀ c ∈ inner, isLineEnd c = false
  /-- the brackets balance -/
  balanced : Balanced inner
  /-- the enclosing brace is not closed early -/
  guarded : ∀ p, p <+: inner → p.count '}' ≤ p.count '{'

namespace NestedBlock

/-- The text of a nested selection. -/
def text (b : NestedBlock) : Text := b.gap ++ '{' :: (b.inner ++ ['}'])

variable (b : NestedBlock)

/-- No separator of a nested selection is at ground depth. -/
theorem pieces_text : pieces Depth.ground b.text = [b.text] := by
  have hgap : pieces Depth.ground b.gap = [b.gap] := by
    refine pieces_of_no_separator _ fun c hc => Bool.eq_false_iff.mpr fun hs => ?_
    rw [isSeparator, Bool.or_eq_true, beq_iff_eq, beq_iff_eq] at hs
    rcases hs with rfl | rfl
    · exact absurd (b.gap_isBlank ',' hc) (by decide)
    · exact b.newline_not_mem_gap hc
  refine pieces_append_single hgap ?_
  rw [b.gap_isBlank.balanced.afterAll]
  exact pieces_braced b.guarded

theorem balanced_text : Balanced b.text := b.gap_isBlank.balanced.append b.balanced.braced

end NestedBlock

/-- An item of a sub-selection: a name and perhaps a nested selection. -/
structure SelectionItem where
  /-- the name -/
  name : Text
  /-- the name is a name -/
  named : Text.IsName name
  /-- the nested selection -/
  nested : Option NestedBlock

namespace SelectionItem

/-- The text of an item. -/
def text (i : SelectionItem) : Text := i.name ++ (i.nested.map NestedBlock.text).getD []

variable (i : SelectionItem)

theorem pieces_text : pieces Depth.ground i.text = [i.text] := by
  refine pieces_append_single (i.named.pieces _) ?_
  rw [i.named.bracketFree.balanced.afterAll]
  cases i.nested with
  | none => rfl
  | some b => exact b.pieces_text

theorem balanced_text : Balanced i.text := by
  refine i.named.bracketFree.balanced.append ?_
  cases i.nested with
  | none => exact BracketFree.nil.balanced
  | some b => exact b.balanced_text

/-- No blank stands at either end of an item. -/
theorem isTight_text : Text.IsTight i.text := by
  rw [text]
  cases i.nested with
  | none =>
    rw [Option.map_none, Option.getD_none, List.append_nil]
    exact i.named.isTight
  | some b =>
    have hlast : b.text = (b.gap ++ '{' :: b.inner) ++ ['}'] := by
      rw [NestedBlock.text, List.append_assoc, List.cons_append]
    rw [Option.map_some, Option.getD_some, hlast]
    exact i.named.isTight.append _ (.singleton (by decide))

/-- An item is a unit of its own. -/
theorem splitSelections_text : splitSelections i.text = [i.text] :=
  splitSelections_of_pieces i.pieces_text i.isTight_text

/-- The name in an item is found, whatever the nested selection is. -/
theorem leafName_text : Entity.leafName i.text = String.ofList i.name := by
  have hname : '{' ∉ i.name := i.named.bracketFree.not_mem (by decide)
  rw [Entity.leafName, text]
  cases i.nested with
  | none =>
    rw [Option.map_none, Option.getD_none, cutNested_append hname, cutNested, List.append_nil,
      Text.trim_of_isTight i.named.isTight]
  | some b =>
    have hfront : '{' ∉ i.name ++ b.gap := by
      rw [List.mem_append, not_or]
      exact ⟨hname, fun hmem => absurd (b.gap_isBlank '{' hmem) (by decide)⟩
    rw [Option.map_some, Option.getD_some, NestedBlock.text, ← List.append_assoc,
      cutNested_braced hfront b.oneLine]
    exact congrArg String.ofList (Text.trim_append .nil i.named.isTight b.gap_isBlank)

end SelectionItem

/-! ## Selections -/

/-- A sub-selection as one writes it. -/
structure WrittenSelection where
  /-- the items in order; where nothing stands between two separators there is none -/
  cells : List (Option SelectionItem)
  /-- what stands between each two of them -/
  joint : Nat → Joint
  /-- what stands in front of the first one -/
  front : Text
  /-- what stands behind the last one -/
  back : Text
  /-- blanks stand in front -/
  front_isBlank : Text.IsBlank front
  /-- blanks stand behind -/
  back_isBlank : Text.IsBlank back

namespace WrittenSelection

/-- The text of a place for an item. -/
def cellText (cell : Option SelectionItem) : Text := (cell.map SelectionItem.text).getD []

/-- The text of a sub-selection. -/
def text (s : WrittenSelection) : Text :=
  s.front ++ (rejoined s.joint (s.cells.map cellText) ++ s.back)

/-- The items of a sub-selection. -/
def items (s : WrittenSelection) : List SelectionItem := s.cells.filterMap id

/-- The fields of a type that a sub-selection names, in order. Other names are passed over. -/
def fields (s : WrittenSelection) (φ : Type) [Fields φ] : List φ :=
  s.items.filterMap fun i => Fields.ofName? φ (String.ofList i.name)

theorem balanced_cellText (cell : Option SelectionItem) : Balanced (cellText cell) := by
  cases cell with
  | none => exact BracketFree.nil.balanced
  | some i => exact i.balanced_text

theorem splitSelections_cellText (cell : Option SelectionItem) :
    splitSelections (cellText cell) = (cell.map SelectionItem.text).toList := by
  cases cell with
  | none => rfl
  | some i => exact i.splitSelections_text

/-- The units of a sub-selection are its items. -/
theorem splitSelections_text (s : WrittenSelection) :
    splitSelections s.text = s.items.map SelectionItem.text := by
  have hbalanced : ∀ t ∈ (s.cells.map cellText).dropLast, Balanced t := by
    intro t ht
    obtain ⟨cell, -, rfl⟩ := List.mem_map.mp (List.dropLast_subset _ ht)
    exact balanced_cellText cell
  -- an empty place has no unit and drops out
  rw [text, splitSelections_blank_append s.front_isBlank,
    splitSelections_append_blank _ s.back_isBlank,
    splitSelections_rejoined_eq_flatMap s.joint hbalanced, List.flatMap_map, items,
    List.map_filterMap, List.filterMap_eq_flatMap_toList]
  exact List.flatMap_congr fun cell _ => splitSelections_cellText cell

end WrittenSelection

/-! ## Projections -/

namespace Entity

variable {φ : Type} [DecidableEq φ] [Fields φ] {e : Entity φ} {value : φ → Json}

/-- An item takes the field that it names. -/
theorem leaf?_text (hvalue : ∀ f, e.first? f = some (value f)) (i : SelectionItem) :
    e.leaf? i.text = (Fields.ofName? φ (String.ofList i.name)).map fun f =>
      (Fields.name f, value f) := by
  rw [leaf?, ← leafName, i.leafName_text]
  cases Fields.ofName? φ (String.ofList i.name) with
  | none => rfl
  | some f => simp [hvalue]

/-- A written selection takes the fields that it names. -/
theorem selected_text (hvalue : ∀ f, e.first? f = some (value f)) (s : WrittenSelection) :
    e.selected s.text = .ofList ((s.fields φ).map fun f => (Fields.name f, value f)) := by
  rw [selected, s.splitSelections_text, List.filterMap_map, WrittenSelection.fields,
    List.map_filterMap]
  exact congrArg _ (List.filterMap_congr fun i _ => leaf?_text hvalue i)

omit [DecidableEq φ] in
/-- Among fields under their names the value of each of them is found. -/
theorem get?_ofList_name [LawfulFields φ] {fields : List φ} {f : φ} (hf : f ∈ fields) :
    (Ordered.ofList (fields.map fun f => (Fields.name f, value f))).get? (Fields.name f)
      = some (value f) := by
  have hkey : Fields.name f
      ∈ (Ordered.ofList (fields.map fun f => (Fields.name f, value f))).keys := by
    rw [Ordered.mem_keys_ofList, List.map_map]
    exact List.mem_map_of_mem hf
  obtain ⟨v, hv⟩ := Ordered.mem_keys_iff.mp hkey
  obtain ⟨g, -, hg⟩ := List.mem_map.mp (Ordered.mem_ofList (Ordered.mem_of_find?_eq_some hv))
  obtain ⟨hname, rfl⟩ := Prod.mk.inj hg
  rw [hv, LawfulFields.eq_of_name_eq g f hname]

/-- How an entity with a value for each field answers written selections. -/
structure Mirrors (e : Entity φ) (value : φ → Json) : Prop where
  /-- the fields that are named are what comes, in the order of first mention and with their
  values -/
  mirrored : ∀ s : WrittenSelection, s.fields φ ≠ [] →
    ∃ o : Object, e.project (some s.text) = .ofObject o ∧
      o.keys = ((s.fields φ).map Fields.name).eraseDups ∧
      ∀ f ∈ s.fields φ, o.get? (Fields.name f) = some (value f)
  /-- selections that name the same fields are answered alike, whatever other names they have,
  whatever is nested in them and however they are laid out -/
  indifferent : ∀ s t : WrittenSelection, s.fields φ = t.fields φ →
    e.project (some s.text) = e.project (some t.text)

theorem mirrors_of_first? [LawfulFields φ] (hvalue : ∀ f, e.first? f = some (value f)) :
    e.Mirrors value where
  mirrored s hs := by
    have hselected := selected_text hvalue s
    have hkeys : (e.selected s.text).keys = ((s.fields φ).map Fields.name).eraseDups := by
      rw [hselected, Ordered.keys_ofList, List.map_map]
      rfl
    -- the first field that is named keeps the projection from falling back to everything
    refine ⟨e.selected s.text, if_neg fun hempty => ?_, hkeys, fun f hf => ?_⟩
    · obtain ⟨f, hf⟩ := List.exists_mem_of_ne_nil _ hs
      have hmem : Fields.name f ∈ (e.selected s.text).keys := by
        rw [hkeys, List.mem_eraseDups]
        exact List.mem_map_of_mem hf
      rw [Ordered.isEmpty_iff_keys.mp hempty] at hmem
      exact List.not_mem_nil hmem
    · rw [hselected]
      exact get?_ofList_name hf
  indifferent s t h := by
    rw [project, project, selected_text hvalue, selected_text hvalue, h]

end Entity

/-! ## Records -/

/-- What a user's record has for each field. -/
def User.value (u : User) : UserField → Json
  | .id => .string u.id
  | .username => .string u.username
  | .email => .string u.email
  | .role => .optionalString u.role
  | .repos => .stringArray u.repos

/-- What a repository's record has for each field. -/
def Repo.value (r : Repo) : RepoField → Json
  | .id => .string r.id
  | .name => .string r.name
  | .stars => .integer r.stars.toInt
  | .language => .string r.language
  | .isPrivate => .bool r.isPrivate
  | .flag => .optionalString r.flag

/-- **Written selections are mirrored** by every user and every repository: the fields that are
named are what comes, and nothing else in the selection makes a difference. -/
theorem written_selections_are_mirrored :
    (∀ u : User, u.entity.Mirrors u.value) ∧ ∀ r : Repo, r.entity.Mirrors r.value := by
  refine ⟨fun u => Entity.mirrors_of_first? fun f => ?_,
    fun r => Entity.mirrors_of_first? fun f => ?_⟩
  · cases f <;> rfl
  · cases f <;> rfl

/-- A selection with nested selections in it that hold separators, brackets and braces or nothing,
and with empty items and a name that is no field. -/
def WrittenSelection.profile : WrittenSelection where
  cells := [none,
    some ⟨"role".toList, by decide,
      some ⟨[' ', ' '], " of(a, b), \x7b id \x7d \x7b\x7d )(".toList, by decide, by decide,
        by simp [isLineEnd], ⟨by decide, by decide⟩, forall_prefix_iff.mpr (by decide)⟩⟩,
    some ⟨"password".toList, by decide, none⟩, none,
    some ⟨"id".toList, by decide,
      some ⟨[], [], .nil, by decide, List.forall_mem_nil _, ⟨rfl, rfl⟩,
        forall_prefix_iff.mpr (by decide)⟩⟩,
    some ⟨"role".toList, by decide, none⟩]
  joint
    | 0 => Gap.newline.joint
    | _ => Gap.comma.joint
  front := []
  back := ['\n']
  front_isBlank := .nil
  back_isBlank := by decide

theorem profile_is_mirrored :
    let dev : User := ⟨"u1", "dev", "pw", "dev@forge", some "developer", ["r1"]⟩
    String.ofList WrittenSelection.profile.text
        = "\nrole  \x7b of(a, b), \x7b id \x7d \x7b\x7d )(\x7d, password, , id\x7b\x7d, role\n" ∧
      ∃ o : Object, dev.entity.project (some WrittenSelection.profile.text) = .ofObject o ∧
        o.keys = ["role", "id"] ∧ o.get? "role" = some (.string "developer") := by
  intro dev
  have hfields : WrittenSelection.profile.fields UserField = [.role, .id, .role] := by decide
  obtain ⟨o, hproject, hkeys, hvalues⟩ :=
    (written_selections_are_mirrored.1 dev).mirrored WrittenSelection.profile (by rw [hfields]; simp)
  rw [hfields] at hkeys hvalues
  exact ⟨by decide, o, hproject, hkeys, hvalues .role List.mem_cons_self⟩

end ForgeQuery
