/-!
# Maps in order of first insertion

An `Ordered κ ν` holds each key once. Inserting under a new key adds an entry at the end;
inserting under a present key keeps the entry's place and replaces its value. Objects of answers,
arguments of a field, and the records of a store are all kept this way, since their order is
visible.

* `keys_insert` — the keys after an insertion.
* `get?_insert` — the value under each key after an insertion.
-/

namespace ForgeQuery

/-- Entries with pairwise distinct keys, in the order in which the keys first came. -/
structure Ordered (κ ν : Type) where
  /-- the entries in order -/
  entries : List (κ × ν)
  /-- each key occurs once -/
  distinct : (entries.map Prod.fst).Nodup
  deriving DecidableEq

namespace Ordered

variable {κ ν : Type}

/-- Two maps with the same entries are equal. -/
@[ext] theorem ext {m n : Ordered κ ν} (h : m.entries = n.entries) : m = n := by
  cases m; cases n
  cases h
  rfl

/-- The map with no entry. -/
def empty : Ordered κ ν := ⟨[], List.nodup_nil⟩

instance : EmptyCollection (Ordered κ ν) := ⟨empty⟩

instance : Inhabited (Ordered κ ν) := ⟨empty⟩

/-- The keys in order. -/
def keys (m : Ordered κ ν) : List κ := m.entries.map Prod.fst

/-- The values in order of their keys. -/
def values (m : Ordered κ ν) : List ν := m.entries.map Prod.snd

/-- Whether there is no entry. -/
def isEmpty (m : Ordered κ ν) : Bool := m.entries.isEmpty

variable [DecidableEq κ]

/-! ## Insertion -/

/-- Put `v` under `k` into a list of entries: in place when `k` is there, else at the end. -/
def put (k : κ) (v : ν) : List (κ × ν) → List (κ × ν)
  | [] => [(k, v)]
  | e :: rest => if e.1 = k then (k, v) :: rest else e :: put k v rest

theorem map_fst_put (k : κ) (v : ν) (l : List (κ × ν)) :
    (put k v l).map Prod.fst
      = if k ∈ l.map Prod.fst then l.map Prod.fst else l.map Prod.fst ++ [k] := by
  induction l with
  | nil => simp [put]
  | cons e rest ih =>
    rw [put]
    by_cases he : e.1 = k
    · simp [he]
    · have hk : ¬ k = e.1 := fun h => he h.symm
      rw [if_neg he, List.map_cons, List.map_cons, ih]
      by_cases hm : k ∈ rest.map Prod.fst
      · rw [if_pos hm, if_pos (List.mem_cons_of_mem _ hm)]
      · have hn : ¬ k ∈ e.1 :: rest.map Prod.fst := by
          rw [List.mem_cons]
          exact fun h => h.elim hk hm
        rw [if_neg hm, if_neg hn, List.cons_append]

/-- Keep the place of a present key and give it the value `v`; add a new key at the end. -/
def insert (m : Ordered κ ν) (k : κ) (v : ν) : Ordered κ ν :=
  ⟨put k v m.entries, by
    rw [map_fst_put]
    split
    · exact m.distinct
    · next h =>
      rw [List.nodup_append]
      exact ⟨m.distinct, by simp, by
        intro a ha b hb hab
        simp only [List.mem_singleton] at hb
        exact h (hb ▸ hab ▸ ha)⟩⟩

theorem keys_insert (m : Ordered κ ν) (k : κ) (v : ν) :
    (m.insert k v).keys = if k ∈ m.keys then m.keys else m.keys ++ [k] :=
  map_fst_put k v m.entries

/-- Insert the pairs of a list one after the other. -/
def insertAll (m : Ordered κ ν) (pairs : List (κ × ν)) : Ordered κ ν :=
  pairs.foldl (fun m e => m.insert e.1 e.2) m

/-- The map built by inserting the pairs of a list in order. -/
def ofList (pairs : List (κ × ν)) : Ordered κ ν := insertAll ∅ pairs

/-! ## Lookup -/

/-- The value of the first entry under `k`. -/
def find? (k : κ) : List (κ × ν) → Option ν
  | [] => none
  | e :: rest => if e.1 = k then some e.2 else find? k rest

/-- The value under `k`. -/
def get? (m : Ordered κ ν) (k : κ) : Option ν := find? k m.entries

theorem find?_put (k j : κ) (v : ν) (l : List (κ × ν)) :
    find? j (put k v l) = if j = k then some v else find? j l := by
  induction l with
  | nil => simp [put, find?, eq_comm]
  | cons e rest ih =>
    rw [put]
    by_cases he : e.1 = k
    · by_cases h : j = k
      · simp [he, find?, h]
      · simp [he, find?, h, Ne.symm h]
    · rw [if_neg he, find?, find?, ih]
      by_cases h : j = k
      · subst h
        simp [he]
      · simp [h]

theorem get?_insert (m : Ordered κ ν) (k j : κ) (v : ν) :
    (m.insert k v).get? j = if j = k then some v else m.get? j :=
  find?_put k j v m.entries

/-! ## Change in place and removal -/

/-- Change the value under `k`; without such an entry nothing happens. -/
def modify (m : Ordered κ ν) (k : κ) (f : ν → ν) : Ordered κ ν :=
  ⟨m.entries.map fun e => if e.1 = k then (e.1, f e.2) else e, by
    have h : (m.entries.map fun e => if e.1 = k then (e.1, f e.2) else e).map Prod.fst
        = m.entries.map Prod.fst := by
      rw [List.map_map]
      refine List.map_congr_left fun e _ => ?_
      simp only [Function.comp_apply]
      split <;> rfl
    rw [h]
    exact m.distinct⟩

theorem keys_modify (m : Ordered κ ν) (k : κ) (f : ν → ν) : (m.modify k f).keys = m.keys := by
  simp only [keys, modify, List.map_map]
  refine List.map_congr_left fun e _ => ?_
  simp only [Function.comp_apply]
  split <;> rfl

theorem get?_modify (m : Ordered κ ν) (k j : κ) (f : ν → ν) :
    (m.modify k f).get? j = if j = k then (m.get? j).map f else m.get? j := by
  simp only [get?, modify]
  induction m.entries with
  | nil => simp [find?]
  | cons e rest ih =>
    rw [List.map_cons, find?, find?, ih]
    by_cases hk : e.1 = k
    · by_cases hj : j = k
      · simp [hk, hj]
      · simp [hk, hj, Ne.symm hj]
    · by_cases hj : j = k
      · simp [hk, hj]
      · simp [hk, hj]

/-- The map without the entry under `k`. -/
def erase (m : Ordered κ ν) (k : κ) : Ordered κ ν :=
  ⟨m.entries.filter fun e => e.1 ≠ k,
    m.distinct.sublist (List.filter_sublist.map Prod.fst)⟩

theorem get?_erase (m : Ordered κ ν) (k j : κ) :
    (m.erase k).get? j = if j = k then none else m.get? j := by
  simp only [get?, erase]
  induction m.entries with
  | nil => simp [find?]
  | cons e rest ih =>
    by_cases hk : e.1 = k
    · by_cases hj : j = k
      · simpa [hk, hj, find?] using ih
      · simpa [hk, hj, find?, Ne.symm hj] using ih
    · by_cases hj : j = k
      · subst hj
        simpa [hk, find?] using ih
      · simp only [ne_eq, hk, not_false_eq_true, decide_true, List.filter_cons_of_pos, find?]
        rw [ih]
        simp [hj]

end Ordered

end ForgeQuery
