import ForgeQuery.Ordered
import Mathlib.Data.List.Basic
import Mathlib.Data.List.Induction

/-!
# Laws of ordered maps

An ordered map is settled by its keys in order and the value under each of them
(`Ordered.ext_get?`). Everything about insertion follows from this and from what one insertion
does to the two (`keys_insert`, `get?_insert`):

* inserting under one key twice is inserting the later value (`insert_insert`);
* an insertion under a present key may be moved in front of others (`insert_comm`);
* a list of insertions may be merged into a map first and inserted entry by entry afterwards
  (`insertAll_insertAll`);
* a map built from pairs has their keys in order of first occurrence (`keys_ofList`), each with its
  last value (`get?_ofList_eq_some_iff`), and pairs with distinct keys stay what they are
  (`entries_ofList`).

Changes in place are settled by the lookups alone (`modify_comm`).
-/

namespace ForgeQuery

namespace Ordered

variable {κ ν : Type} [DecidableEq κ]

/-! ## Keys and values settle a map -/

theorem find?_eq_none_iff {k : κ} {l : List (κ × ν)} : find? k l = none ↔ k ∉ l.map Prod.fst := by
  induction l with
  | nil => simp [find?]
  | cons e rest ih =>
    rw [find?]
    by_cases he : e.1 = k
    · simp [he]
    · rw [if_neg he, ih, List.map_cons, List.mem_cons, not_or]
      exact ⟨fun h => ⟨Ne.symm he, h⟩, fun h => h.2⟩

/-- The keys are the places where a lookup finds something. -/
theorem mem_keys_iff {m : Ordered κ ν} {k : κ} : k ∈ m.keys ↔ ∃ v, m.get? k = some v := by
  rw [← Option.ne_none_iff_exists', get?, ne_eq, find?_eq_none_iff, Classical.not_not]
  rfl

omit [DecidableEq κ] in
theorem isEmpty_iff_keys {m : Ordered κ ν} : m.isEmpty = true ↔ m.keys = [] := by
  rw [isEmpty, List.isEmpty_iff, keys, List.map_eq_nil_iff]

/-- What a lookup finds is an entry. -/
theorem mem_of_find?_eq_some {k : κ} {v : ν} {l : List (κ × ν)} (h : find? k l = some v) :
    (k, v) ∈ l := by
  induction l with
  | nil => simp [find?] at h
  | cons e rest ih =>
    rw [find?] at h
    by_cases he : e.1 = k
    · rw [if_pos he] at h
      rw [← he, ← Option.some.inj h]
      exact List.mem_cons_self
    · rw [if_neg he] at h
      exact List.mem_cons_of_mem _ (ih h)

/-- A lookup finds the value of the first entry under the key. -/
theorem find?_eq_some_iff_append {k : κ} {v : ν} {l : List (κ × ν)} :
    find? k l = some v ↔
      ∃ front behind, l = front ++ (k, v) :: behind ∧ k ∉ front.map Prod.fst := by
  induction l with
  | nil => simp [find?]
  | cons e rest ih =>
    rw [find?]
    by_cases he : e.1 = k
    · subst he
      rw [if_pos rfl]
      constructor
      · intro h
        exact ⟨[], rest, by rw [← Option.some.inj h, List.nil_append], List.not_mem_nil⟩
      · rintro ⟨front, behind, hl, hfront⟩
        cases front with
        | nil => rw [(List.cons.inj hl).1]
        | cons d front =>
          obtain ⟨rfl, -⟩ := List.cons.inj hl
          exact absurd List.mem_cons_self hfront
    · rw [if_neg he, ih]
      constructor
      · rintro ⟨front, behind, rfl, hfront⟩
        refine ⟨e :: front, behind, rfl, ?_⟩
        rw [List.map_cons, List.mem_cons, not_or]
        exact ⟨Ne.symm he, hfront⟩
      · rintro ⟨front, behind, hl, hfront⟩
        cases front with
        | nil => exact absurd (congrArg Prod.fst (List.cons.inj hl).1) he
        | cons d front =>
          obtain ⟨rfl, rfl⟩ := List.cons.inj hl
          exact ⟨front, behind, rfl, fun h => hfront (List.mem_cons_of_mem _ h)⟩

/-- Among entries with distinct keys a lookup finds each of them. -/
theorem find?_of_mem {l : List (κ × ν)} (hd : (l.map Prod.fst).Nodup) {e : κ × ν} (he : e ∈ l) :
    find? e.1 l = some e.2 := by
  induction l with
  | nil => exact absurd he List.not_mem_nil
  | cons e' rest ih =>
    rw [List.map_cons, List.nodup_cons] at hd
    rw [find?]
    rcases List.mem_cons.mp he with rfl | he
    · rw [if_pos rfl]
    · have hne : ¬ e'.1 = e.1 := by
        intro h
        exact hd.1 (List.mem_map.mpr ⟨e, he, h.symm⟩)
      rw [if_neg hne, ih hd.2 he]

theorem get?_of_mem {m : Ordered κ ν} {e : κ × ν} (he : e ∈ m.entries) : m.get? e.1 = some e.2 :=
  find?_of_mem m.distinct he

/-- Two lists of entries with the same distinct keys agree as soon as their lookups do. -/
theorem eq_of_find? {l l' : List (κ × ν)} (hk : l.map Prod.fst = l'.map Prod.fst)
    (hd : (l.map Prod.fst).Nodup) (hv : ∀ k, find? k l = find? k l') : l = l' := by
  induction l generalizing l' with
  | nil =>
    rw [List.map_nil, eq_comm, List.map_eq_nil_iff] at hk
    exact hk.symm
  | cons e rest ih =>
    cases l' with
    | nil => simp at hk
    | cons e' rest' =>
      rw [List.map_cons, List.map_cons] at hk
      obtain ⟨h₁, h₂⟩ := List.cons.inj hk
      rw [List.map_cons, List.nodup_cons] at hd
      have hhead : e.2 = e'.2 := by
        have := hv e.1
        rw [find?, find?, if_pos rfl, if_pos h₁.symm] at this
        exact Option.some.inj this
      have htail : rest = rest' := by
        refine ih h₂ hd.2 fun k => ?_
        by_cases hke : e.1 = k
        · -- the first key occurs nowhere behind the first entry
          rw [find?_eq_none_iff.mpr (hke ▸ hd.1), eq_comm, find?_eq_none_iff, ← h₂]
          exact hke ▸ hd.1
        · have := hv k
          rw [find?, find?, if_neg hke, if_neg (h₁ ▸ hke)] at this
          exact this
      rw [htail, Prod.ext h₁ hhead]

/-- Two maps with the same keys in the same order and the same value under each are equal. -/
theorem ext_get? {m n : Ordered κ ν} (hk : m.keys = n.keys) (hv : ∀ k, m.get? k = n.get? k) :
    m = n :=
  ext (eq_of_find? hk m.distinct hv)

/-! ## Insertion after insertion -/

theorem mem_keys_insert {m : Ordered κ ν} {k j : κ} {v : ν} :
    j ∈ (m.insert k v).keys ↔ j = k ∨ j ∈ m.keys := by
  rw [mem_keys_iff, mem_keys_iff, get?_insert]
  by_cases h : j = k
  · simp [h]
  · simp [h]

/-- An insertion under a present key adds no key. -/
theorem keys_insert_of_mem {m : Ordered κ ν} {k : κ} (h : k ∈ m.keys) (v : ν) :
    (m.insert k v).keys = m.keys := by
  rw [keys_insert, if_pos h]

/-- The later of two values under one key is the one that is kept. -/
theorem insert_insert (m : Ordered κ ν) (k : κ) (v w : ν) :
    (m.insert k v).insert k w = m.insert k w := by
  refine ext_get? ?_ fun j => ?_
  · rw [keys_insert_of_mem (mem_keys_insert.mpr (Or.inl rfl)), keys_insert, keys_insert]
  · rw [get?_insert, get?_insert, get?_insert]
    by_cases h : j = k
    · rw [if_pos h, if_pos h]
    · rw [if_neg h, if_neg h, if_neg h]

/-- A present key can be given its value before or after another key is inserted. -/
theorem insert_comm {m : Ordered κ ν} {k j : κ} (hk : k ∈ m.keys) (hjk : j ≠ k) (v w : ν) :
    (m.insert j w).insert k v = (m.insert k v).insert j w := by
  refine ext_get? ?_ fun i => ?_
  · rw [keys_insert_of_mem (mem_keys_insert.mpr (Or.inr hk)), keys_insert, keys_insert,
      keys_insert_of_mem hk]
  · rw [get?_insert, get?_insert, get?_insert, get?_insert]
    by_cases hi : i = k
    · rw [if_pos hi, if_neg fun h => hjk (h.symm.trans hi), if_pos hi]
    · rw [if_neg hi, if_neg hi]

/-! ## Lists of insertions -/

@[simp] theorem insertAll_nil (m : Ordered κ ν) : m.insertAll [] = m := rfl

@[simp] theorem insertAll_cons (m : Ordered κ ν) (e : κ × ν) (pairs : List (κ × ν)) :
    m.insertAll (e :: pairs) = (m.insert e.1 e.2).insertAll pairs := rfl

theorem insertAll_append (m : Ordered κ ν) (a b : List (κ × ν)) :
    m.insertAll (a ++ b) = (m.insertAll a).insertAll b :=
  List.foldl_append

/-- A present key that none of the pairs mentions can be given its value first. -/
theorem insert_insertAll {m : Ordered κ ν} {k : κ} {pairs : List (κ × ν)} (hm : k ∈ m.keys)
    (hp : k ∉ pairs.map Prod.fst) (v : ν) :
    (m.insertAll pairs).insert k v = (m.insert k v).insertAll pairs := by
  induction pairs generalizing m with
  | nil => rfl
  | cons e rest ih =>
    rw [List.map_cons, List.mem_cons, not_or] at hp
    rw [insertAll_cons, insertAll_cons, ih (mem_keys_insert.mpr (Or.inr hm)) hp.2,
      insert_comm hm (Ne.symm hp.1)]

/-- Putting a pair into a list of entries is one more insertion behind theirs. -/
theorem insertAll_put (m : Ordered κ ν) (k : κ) (v : ν) {l : List (κ × ν)}
    (hd : (l.map Prod.fst).Nodup) : m.insertAll (put k v l) = (m.insertAll l).insert k v := by
  induction l generalizing m with
  | nil => rfl
  | cons e rest ih =>
    rw [List.map_cons, List.nodup_cons] at hd
    rw [put]
    by_cases he : e.1 = k
    · subst he
      rw [if_pos rfl, insertAll_cons, insertAll_cons,
        insert_insertAll (mem_keys_insert.mpr (Or.inl rfl)) hd.1, insert_insert]
    · rw [if_neg he, insertAll_cons, insertAll_cons, ih _ hd.2]

/-- Pairs can be inserted into one map first, and the entries of that map into another. -/
theorem insertAll_insertAll (m n : Ordered κ ν) (pairs : List (κ × ν)) :
    m.insertAll (n.insertAll pairs).entries = (m.insertAll n.entries).insertAll pairs := by
  induction pairs generalizing n with
  | nil => rfl
  | cons e rest ih =>
    rw [insertAll_cons, insertAll_cons, ih]
    exact congrArg (insertAll · rest) (insertAll_put m e.1 e.2 n.distinct)

/-- Pairs can be merged into a map before they are inserted. -/
theorem insertAll_ofList (m : Ordered κ ν) (pairs : List (κ × ν)) :
    m.insertAll (ofList pairs).entries = m.insertAll pairs :=
  insertAll_insertAll m ∅ pairs

/-- A map built from two lists is one with the other one inserted. -/
theorem ofList_append (a b : List (κ × ν)) :
    ofList (a ++ b) = (ofList a).insertAll (ofList b).entries := by
  rw [insertAll_ofList]
  exact insertAll_append ∅ a b

/-- After an insertion there is no new entry but the one that is inserted. -/
theorem mem_put {k : κ} {v : ν} {l : List (κ × ν)} {e : κ × ν} (h : e ∈ put k v l) :
    e = (k, v) ∨ e ∈ l := by
  induction l with
  | nil =>
    rw [put, List.mem_singleton] at h
    exact Or.inl h
  | cons e' rest ih =>
    rw [put] at h
    by_cases he : e'.1 = k
    · rw [if_pos he, List.mem_cons] at h
      exact h.imp id (List.mem_cons_of_mem e')
    · rw [if_neg he, List.mem_cons] at h
      rcases h with rfl | h
      · exact Or.inr List.mem_cons_self
      · exact (ih h).imp id (List.mem_cons_of_mem e')

/-- An entry after insertions was there before or is one of the pairs. -/
theorem mem_insertAll {m : Ordered κ ν} {pairs : List (κ × ν)} {e : κ × ν}
    (h : e ∈ (m.insertAll pairs).entries) : e ∈ m.entries ∨ e ∈ pairs := by
  induction pairs generalizing m with
  | nil => exact Or.inl h
  | cons p rest ih =>
    rcases ih h with hm | hr
    · rcases mem_put hm with rfl | hm
      · exact Or.inr List.mem_cons_self
      · exact Or.inl hm
    · exact Or.inr (List.mem_cons_of_mem p hr)

/-- The entries of a map built from pairs are among the pairs. -/
theorem mem_ofList {pairs : List (κ × ν)} {e : κ × ν} (h : e ∈ (ofList pairs).entries) :
    e ∈ pairs :=
  (mem_insertAll h).resolve_left List.not_mem_nil

/-- The keys after insertions are those that were there before and those of the pairs. -/
theorem mem_keys_insertAll {m : Ordered κ ν} {pairs : List (κ × ν)} {k : κ} :
    k ∈ (m.insertAll pairs).keys ↔ k ∈ m.keys ∨ k ∈ pairs.map Prod.fst := by
  induction pairs generalizing m with
  | nil => simp
  | cons p rest ih =>
    rw [insertAll_cons, ih, mem_keys_insert, List.map_cons, List.mem_cons, or_assoc, or_left_comm]

/-- A map built from pairs has exactly their keys. -/
theorem mem_keys_ofList {pairs : List (κ × ν)} {k : κ} :
    k ∈ (ofList pairs).keys ↔ k ∈ pairs.map Prod.fst := by
  rw [ofList, mem_keys_insertAll]
  exact or_iff_right List.not_mem_nil

/-! ## Maps built from pairs -/

theorem ofList_concat (pairs : List (κ × ν)) (e : κ × ν) :
    ofList (pairs ++ [e]) = (ofList pairs).insert e.1 e.2 :=
  insertAll_append ∅ pairs [e]

/-- A map built from pairs has their keys in the order in which they first occur. -/
theorem keys_ofList (pairs : List (κ × ν)) :
    (ofList pairs).keys = (pairs.map Prod.fst).eraseDups := by
  induction pairs using List.reverseRecOn with
  | nil => rfl
  | append_singleton pairs e ih =>
    rw [ofList_concat, keys_insert, ih, List.map_append, List.map_singleton, List.eraseDups_append,
      List.cons_removeAll]
    by_cases h : e.1 ∈ pairs.map Prod.fst
    · simp [h]
    · simp [h, List.eraseDups_cons]

/-- A new key goes to the end. -/
theorem put_of_not_mem {k : κ} {l : List (κ × ν)} (h : k ∉ l.map Prod.fst) (v : ν) :
    put k v l = l ++ [(k, v)] := by
  induction l with
  | nil => rfl
  | cons e rest ih =>
    rw [List.map_cons, List.mem_cons, not_or] at h
    rw [put, if_neg (Ne.symm h.1), ih h.2, List.cons_append]

/-- A map built from pairs with distinct keys holds the pairs as they are. -/
theorem entries_ofList {pairs : List (κ × ν)} (h : (pairs.map Prod.fst).Nodup) :
    (ofList pairs).entries = pairs := by
  induction pairs using List.reverseRecOn with
  | nil => rfl
  | append_singleton pairs e ih =>
    rw [List.map_append, List.nodup_append] at h
    obtain ⟨hpairs, -, hdisjoint⟩ := h
    have hnew : e.1 ∉ pairs.map Prod.fst := fun hmem =>
      hdisjoint e.1 hmem e.1 (List.mem_singleton.mpr rfl) rfl
    calc (ofList (pairs ++ [e])).entries
        = put e.1 e.2 (ofList pairs).entries := by rw [ofList_concat]; rfl
      _ = put e.1 e.2 pairs := by rw [ih hpairs]
      _ = pairs ++ [e] := put_of_not_mem hnew e.2

/-- A map built from pairs is looked up from the last pair backwards. -/
theorem get?_ofList (pairs : List (κ × ν)) (k : κ) :
    (ofList pairs).get? k = find? k pairs.reverse := by
  induction pairs using List.reverseRecOn with
  | nil => rfl
  | append_singleton pairs e ih =>
    rw [ofList_concat, get?_insert, ih, List.reverse_append, List.reverse_singleton,
      List.singleton_append, find?]
    by_cases h : e.1 = k
    · rw [if_pos h, if_pos h.symm]
    · rw [if_neg h, if_neg (Ne.symm h)]

/-- A map built from pairs holds the last value of each key. -/
theorem get?_ofList_eq_some_iff {pairs : List (κ × ν)} {k : κ} {v : ν} :
    (ofList pairs).get? k = some v ↔
      ∃ front behind, pairs = front ++ (k, v) :: behind ∧ k ∉ behind.map Prod.fst := by
  rw [get?_ofList, find?_eq_some_iff_append]
  constructor
  · rintro ⟨front, behind, hpairs, hfront⟩
    refine ⟨behind.reverse, front.reverse, ?_, by simpa using hfront⟩
    rw [← List.reverse_reverse pairs, hpairs]
    simp
  · rintro ⟨front, behind, rfl, hbehind⟩
    exact ⟨behind.reverse, front.reverse, by simp, by simpa using hbehind⟩

/-! ## Looking up every key -/

/-- Looking the keys up in order gives the values in order. -/
theorem filterMap_get?_keys (m : Ordered κ ν) : m.keys.filterMap m.get? = m.values := by
  rw [keys, values, List.filterMap_map, ← List.filterMap_eq_map]
  exact List.filterMap_congr fun e he => get?_of_mem he

/-! ## Changes in place -/

/-- Changing what is not there changes nothing. -/
theorem modify_of_not_mem {m : Ordered κ ν} {k : κ} (h : k ∉ m.keys) (f : ν → ν) :
    m.modify k f = m := by
  refine ext_get? (keys_modify m k f) fun j => ?_
  rw [get?_modify]
  by_cases hj : j = k
  · rw [if_pos hj, hj, get?, find?_eq_none_iff.mpr h, Option.map_none]
  · rw [if_neg hj]

/-- Values under different keys, and one value in two ways that do not get in each other's way, can
be changed in either order. -/
theorem modify_comm (m : Ordered κ ν) {k j : κ} {f g : ν → ν}
    (h : k ≠ j ∨ ∀ v, g (f v) = f (g v)) :
    (m.modify k f).modify j g = (m.modify j g).modify k f := by
  refine ext_get? ?_ fun i => ?_
  · rw [keys_modify, keys_modify, keys_modify, keys_modify]
  · rw [get?_modify, get?_modify, get?_modify, get?_modify]
    by_cases hk : i = k
    · by_cases hj : i = j
      · rw [if_pos hj, if_pos hk, if_pos hk, if_pos hj, Option.map_map, Option.map_map]
        exact congrArg (Option.map · _) (funext (h.resolve_left fun hne => hne (hk.symm.trans hj)))
      · rw [if_neg hj, if_pos hk, if_pos hk, if_neg hj]
    · by_cases hj : i = j
      · rw [if_pos hj, if_neg hk, if_neg hk, if_pos hj]
      · rw [if_neg hj, if_neg hk, if_neg hk, if_neg hj]

end Ordered

end ForgeQuery
