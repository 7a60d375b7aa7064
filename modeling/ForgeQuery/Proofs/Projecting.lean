import ForgeQuery.Forge.Record
import ForgeQuery.Proofs.OrderedLaws
import Mathlib.Data.List.Nodup

/-!
# What a projection keeps

A sub-selection mentions names, one in each unit, and of these the names of carried fields count
(`Entity.mentioned`). If there is any, the projection has exactly these names in the order of first
mention, each with the first value that the entity was given for the field. If there is none, it is
the whole entity, in which a field stands at the place of its first value and has the last one
(`projections_keep_what_is_mentioned`).

The two rules differ only for entities that were given a field twice. The entities of records were
not, so that a projection of them is a part of the whole.

A name stands for a field because no two fields of a type share one (`LawfulFields`).
-/

namespace ForgeQuery

/-! ## Fields and their names -/

/-- The type lists all of its fields, each under a name of its own. -/
class LawfulFields (φ : Type) [Fields φ] : Prop where
  /-- every field is listed -/
  mem_all : ∀ f : φ, f ∈ (Fields.all : List φ)
  /-- no two fields share a name -/
  eq_of_name_eq : ∀ f g : φ, Fields.name f = Fields.name g → f = g

instance : LawfulFields UserField where
  mem_all f := by cases f <;> decide
  eq_of_name_eq f g := by cases f <;> cases g <;> decide

instance : LawfulFields RepoField where
  mem_all f := by cases f <;> decide
  eq_of_name_eq f g := by cases f <;> cases g <;> decide

variable {φ : Type} [Fields φ]

theorem Fields.name_of_ofName? {name : String} {f : φ} (h : Fields.ofName? φ name = some f) :
    Fields.name f = name := by
  simpa using List.find?_some h

theorem Fields.ofName?_eq_some_iff [LawfulFields φ] {name : String} {f : φ} :
    Fields.ofName? φ name = some f ↔ Fields.name f = name := by
  constructor
  · exact Fields.name_of_ofName?
  · intro hf
    cases h : Fields.ofName? φ name with
    | none =>
      have hno := List.find?_eq_none.mp h f (LawfulFields.mem_all f)
      simp [hf] at hno
    | some g => rw [LawfulFields.eq_of_name_eq g f ((Fields.name_of_ofName? h).trans hf.symm)]

/-! ## What an entity was given -/

namespace Entity

/-- The names of the fields that the entity was given, as often as it was given them. -/
def names (e : Entity φ) : List String := e.entries.map fun entry => Fields.name entry.1

/-- The value is the first one that the entity was given under the name. -/
def GivesFirst (e : Entity φ) (name : String) (v : Json) : Prop :=
  ∃ f front behind, Fields.name f = name ∧ e.entries = front ++ (f, v) :: behind ∧
    f ∉ front.map Prod.fst

/-- The value is the last one that the entity was given under the name. -/
def GivesLast (e : Entity φ) (name : String) (v : Json) : Prop :=
  ∃ f front behind, Fields.name f = name ∧ e.entries = front ++ (f, v) :: behind ∧
    f ∉ behind.map Prod.fst

/-- Whether the entity was given no field twice. -/
def HasDistinctFields (e : Entity φ) : Prop := (e.entries.map Prod.fst).Nodup

variable {e : Entity φ} {m : String × Json}

theorem GivesFirst.exists_entry (h : e.GivesFirst m.1 m.2) :
    ∃ f, (f, m.2) ∈ e.entries ∧ m.1 = Fields.name f := by
  obtain ⟨f, front, behind, hname, hentries, -⟩ := h
  exact ⟨f, by simp [hentries], hname.symm⟩

theorem GivesLast.exists_entry (h : e.GivesLast m.1 m.2) :
    ∃ f, (f, m.2) ∈ e.entries ∧ m.1 = Fields.name f := by
  obtain ⟨f, front, behind, hname, hentries, -⟩ := h
  exact ⟨f, by simp [hentries], hname.symm⟩

theorem HasDistinctFields.nodup_names [LawfulFields φ] (h : e.HasDistinctFields) :
    e.names.Nodup := by
  have hnames : e.names = (e.entries.map Prod.fst).map Fields.name := List.map_map.symm
  rw [hnames]
  exact List.Nodup.map (fun f g => LawfulFields.eq_of_name_eq f g) h

/-! ## The whole entity -/

/-- An entity that names each field once is shown with its entries as they are. -/
theorem entries_toObject (h : e.names.Nodup) :
    e.toObject.entries = e.entries.map fun entry => (Fields.name entry.1, entry.2) := by
  refine Ordered.entries_ofList ?_
  rwa [List.map_map]

/-- The whole entity has its fields at the places of their first values. -/
theorem keys_toObject (e : Entity φ) : e.toObject.keys = e.names.eraseDups := by
  rw [toObject, Ordered.keys_ofList, List.map_map]
  rfl

/-- In the whole entity every field has its last value. -/
theorem givesLast_of_mem_toObject (h : m ∈ e.toObject.entries) : e.GivesLast m.1 m.2 := by
  obtain ⟨front, behind, hpairs, hbehind⟩ :=
    Ordered.get?_ofList_eq_some_iff.mp (Ordered.get?_of_mem h)
  obtain ⟨before, rest, hentries, -, hrest⟩ := List.map_eq_append_iff.mp hpairs
  obtain ⟨entry, after, rfl, hentry, rfl⟩ := List.map_eq_cons_iff.mp hrest
  obtain ⟨hname, hvalue⟩ := Prod.mk.inj hentry
  refine ⟨entry.1, before, after, hname, by rw [hentries, ← hvalue], fun hmem => hbehind ?_⟩
  -- a later value of the field would stand under the same name
  obtain ⟨later, hlater, hsame⟩ := List.mem_map.mp hmem
  rw [List.map_map]
  exact List.mem_map.mpr ⟨later, hlater, (congrArg Fields.name hsame).trans hname⟩

/-- The whole of an entity is empty only if it was given nothing. -/
theorem eq_nil_of_toObject (h : e.toObject.entries = []) : e.entries = [] := by
  rw [List.eq_nil_iff_forall_not_mem]
  intro entry hentry
  have hkey : Fields.name entry.1 ∈ e.toObject.keys := by
    rw [e.keys_toObject, List.mem_eraseDups]
    exact List.mem_map_of_mem hentry
  rw [Ordered.keys, h] at hkey
  exact List.not_mem_nil hkey

/-! ## What is mentioned -/

/-- The name in a unit of a sub-selection: what is left when a nested selection is cut out, without
blanks around it. -/
def leafName (unit : Text) : String := String.ofList (Text.trim (cutNested unit))

/-- The names of carried fields in a sub-selection, each at its first mention. -/
def mentioned (e : Entity φ) : Option Text → List String
  | none => []
  | some sub => (((splitSelections sub).map leafName).filter (· ∈ e.names)).eraseDups

variable [DecidableEq φ]

/-- What a unit takes stands under the name in it, and is the first value given for the field. -/
theorem givesFirst_of_leaf? {unit : Text} (h : e.leaf? unit = some m) :
    m.1 = leafName unit ∧ e.GivesFirst m.1 m.2 := by
  obtain ⟨f, hf, h⟩ := Option.bind_eq_some_iff.mp h
  obtain ⟨v, hv, h⟩ := Option.bind_eq_some_iff.mp h
  obtain rfl := Option.some.inj h
  obtain ⟨front, behind, hentries, hfront⟩ := Ordered.find?_eq_some_iff_append.mp hv
  exact ⟨Fields.name_of_ofName? hf, f, front, behind, rfl, hentries, hfront⟩

/-- Every selected field has its first value. -/
theorem givesFirst_of_mem_selected {sub : Text} (h : m ∈ (e.selected sub).entries) :
    e.GivesFirst m.1 m.2 := by
  obtain ⟨unit, -, hleaf⟩ := List.mem_filterMap.mp (Ordered.mem_ofList h)
  exact (givesFirst_of_leaf? hleaf).2

/-- A unit with the name of a carried field takes something. -/
theorem exists_of_leafName_mem [LawfulFields φ] {unit : Text} (h : leafName unit ∈ e.names) :
    ∃ v, e.leaf? unit = some (leafName unit, v) := by
  obtain ⟨entry, hentry, hname⟩ := List.mem_map.mp h
  have hfound : e.first? entry.1 ≠ none := by
    rw [first?, ne_eq, Ordered.find?_eq_none_iff, not_not]
    exact List.mem_map_of_mem hentry
  obtain ⟨v, hv⟩ := Option.ne_none_iff_exists'.mp hfound
  refine ⟨v, ?_⟩
  rw [leaf?, ← leafName, Fields.ofName?_eq_some_iff.mpr hname, Option.bind_eq_bind,
    Option.bind_some, hv, hname]
  rfl

/-- A unit takes something exactly if the name in it is that of a carried field. -/
theorem map_fst_leaf? [LawfulFields φ] (e : Entity φ) (unit : Text) :
    (e.leaf? unit).map Prod.fst = Option.guard (· ∈ e.names) (leafName unit) := by
  by_cases h : leafName unit ∈ e.names
  · obtain ⟨v, hv⟩ := exists_of_leafName_mem h
    simp [hv, Option.guard, h]
  · have hnone : e.leaf? unit = none := by
      rw [Option.eq_none_iff_forall_ne_some]
      intro m hm
      obtain ⟨hname, hfirst⟩ := givesFirst_of_leaf? hm
      obtain ⟨f, hf, hsame⟩ := hfirst.exists_entry
      exact h (List.mem_map.mpr ⟨(f, m.2), hf, hsame.symm.trans hname⟩)
    simp [hnone, Option.guard, h]

/-- The selected fields are those that are mentioned. -/
theorem keys_selected [LawfulFields φ] (e : Entity φ) (sub : Text) :
    (e.selected sub).keys = e.mentioned (some sub) := by
  have hnames : ((splitSelections sub).filterMap e.leaf?).map Prod.fst
      = ((splitSelections sub).map leafName).filter (· ∈ e.names) := by
    rw [List.map_filterMap, ← List.filterMap_eq_filter, List.filterMap_map]
    exact List.filterMap_congr fun unit _ => e.map_fst_leaf? unit
  rw [selected, Ordered.keys_ofList, hnames, mentioned]

/-! ## Projections -/

omit [DecidableEq φ] in
/-- What an entity keeps in an object that it is projected to. -/
structure Keeps (e : Entity φ) (sub : Option Text) (o : Object) : Prop where
  /-- if anything is mentioned it is all that is kept, in order and with the first values -/
  mentioned : e.mentioned sub ≠ [] →
    o.keys = e.mentioned sub ∧ ∀ m ∈ o.entries, e.GivesFirst m.1 m.2
  /-- else everything is kept, at the places of the first values and with the last ones -/
  whole : e.mentioned sub = [] →
    o.keys = e.names.eraseDups ∧ ∀ m ∈ o.entries, e.GivesLast m.1 m.2
  /-- nothing is left only of an entity that was given nothing -/
  inhabited : o.entries = [] → e.entries = []
  /-- only carried fields are kept -/
  carried : ∀ name ∈ o.keys, name ∈ e.names
  /-- if no field was given twice, what is kept is a part of the whole -/
  agrees : e.HasDistinctFields → ∀ m ∈ o.entries, m ∈ e.toObject.entries

omit [DecidableEq φ] in
theorem keeps_toObject {sub : Option Text} (h : e.mentioned sub = []) :
    e.Keeps sub e.toObject where
  mentioned hno := absurd h hno
  whole _ := ⟨e.keys_toObject, fun _ => givesLast_of_mem_toObject⟩
  inhabited := eq_nil_of_toObject
  carried name hname := by
    rw [e.keys_toObject] at hname
    exact List.mem_eraseDups.mp hname
  agrees _ _ hm := hm

theorem keeps_selected [LawfulFields φ] {sub : Text} (h : e.mentioned (some sub) ≠ []) :
    e.Keeps (some sub) (e.selected sub) where
  mentioned _ := ⟨e.keys_selected sub, fun _ => givesFirst_of_mem_selected⟩
  whole hno := absurd hno h
  inhabited hnil := by
    refine absurd ?_ h
    rw [← e.keys_selected, Ordered.keys, hnil, List.map_nil]
  carried name hname := by
    rw [e.keys_selected, Entity.mentioned, List.mem_eraseDups, List.mem_filter] at hname
    simpa using hname.2
  agrees hdistinct m hm := by
    obtain ⟨f, hf, hname⟩ := (givesFirst_of_mem_selected hm).exists_entry
    rw [entries_toObject hdistinct.nodup_names]
    exact List.mem_map.mpr ⟨(f, m.2), hf, by rw [← hname]⟩

end Entity

theorem User.hasDistinctFields_entity (u : User) : u.entity.HasDistinctFields :=
  (by decide : [UserField.id, .username, .email, .role, .repos].Nodup)

theorem User.hasDistinctFields_profileEntity (u : User) : u.profileEntity.HasDistinctFields :=
  (by decide : [UserField.id, .username, .email, .role].Nodup)

theorem Repo.hasDistinctFields_entity (r : Repo) : r.entity.HasDistinctFields :=
  (by decide : [RepoField.id, .name, .stars, .language, .isPrivate, .flag].Nodup)

/-- **Projections keep what is mentioned**, and everything when nothing is: whatever an entity was
given, in whatever order and however often, and whatever the sub-selection is. The entities of
records were given no field twice. -/
theorem projections_keep_what_is_mentioned {φ : Type} [DecidableEq φ] [Fields φ] [LawfulFields φ] :
    (∀ (e : Entity φ) (sub : Option Text), ∃ o : Object, e.project sub = .ofObject o ∧
        e.Keeps sub o) ∧
      (∀ u : User, u.entity.HasDistinctFields ∧ u.profileEntity.HasDistinctFields) ∧
      ∀ r : Repo, r.entity.HasDistinctFields := by
  refine ⟨fun e sub => ?_, fun u => ⟨u.hasDistinctFields_entity, u.hasDistinctFields_profileEntity⟩,
    Repo.hasDistinctFields_entity⟩
  cases sub with
  | none => exact ⟨e.toObject, rfl, Entity.keeps_toObject rfl⟩
  | some sub =>
    have hempty : (e.selected sub).isEmpty = true ↔ e.mentioned (some sub) = [] := by
      rw [Ordered.isEmpty_iff_keys, e.keys_selected]
    by_cases h : e.mentioned (some sub) = []
    · exact ⟨e.toObject, if_pos (hempty.mpr h), Entity.keeps_toObject h⟩
    · exact ⟨e.selected sub, if_neg (mt hempty.mp h), Entity.keeps_selected h⟩

/-- An entity that was given two names is asked for them, twice and with a selection inside, for a
field that it does not carry and for one that there is not; and then for everything. -/
theorem repeated_name_is_kept_once :
    let e : Entity RepoField := ⟨[(.name, .string "a"), (.id, .string "1"), (.name, .string "b")]⟩
    let sub := some " stars, name \x7b x, y \x7d\nid, name, password".toList
    let kept : Object := .ofList [("name", .string "a"), ("id", .string "1")]
    let whole : Object := .ofList [("name", .string "b"), ("id", .string "1")]
    e.project sub = .ofObject kept ∧ e.Keeps sub kept ∧
      e.project none = .ofObject whole ∧ e.Keeps none whole := by
  intro e sub kept whole
  have hkept : e.project sub = .ofObject kept := rfl
  have hwhole : e.project none = .ofObject whole := rfl
  have hkeeps {sub : Option Text} {o : Object} (h : e.project sub = .ofObject o) :
      e.Keeps sub o := by
    obtain ⟨o', ho', hkeeps⟩ := projections_keep_what_is_mentioned.1 e sub
    have hsame : o = o' := Ordered.ext (Json.object.inj (h.symm.trans ho'))
    rwa [hsame]
  exact ⟨hkept, hkeeps hkept, hwhole, hkeeps hwhole⟩

end ForgeQuery
