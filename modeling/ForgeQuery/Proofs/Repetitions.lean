import ForgeQuery.Proofs.Indexing

/-!
# The repetition that is reported

The validation of a configuration goes through three lists of its seed, one after the other, and
ends at the first entry that it has seen before. What is reported can be told from the lists alone:
it is the first list in which something is repeated (`Seed.RepeatsFirst`), and of this list the
entry at the smallest position whose text stands at an earlier position as well
(`IsFirstRepetition`). A configuration is refused for nothing else
(`first_repetition_is_reported`).

The scan keeps what it has seen; all that matters of this is that it is the front of the list, and
that the front repeats nothing (`firstRepeated?_eq_some_iff`).
-/

namespace ForgeQuery

/-! ## Positions -/

/-- The text at a position stands at an earlier position as well. -/
def RepeatsAt (l : List String) (i : Nat) : Prop := ∃ j < i, ∃ x, l[j]? = some x ∧ l[i]? = some x

/-- `x` stands at the smallest position at which something is repeated. -/
def IsFirstRepetition (l : List String) (x : String) : Prop :=
  ∃ i, l[i]? = some x ∧ RepeatsAt l i ∧ ∀ j < i, ¬ RepeatsAt l j

/-- In front of a position nothing is repeated if the texts in front of it are distinct. -/
theorem forall_not_repeatsAt_iff {front back : List String} :
    (∀ j < front.length, ¬ RepeatsAt (front ++ back) j) ↔ front.Nodup := by
  rw [List.nodup_iff_getElem?_ne_getElem?]
  constructor
  · intro h i j hij hj hsame
    have hx := List.getElem?_eq_getElem hj
    refine h j hj ⟨i, hij, front[j], ?_, ?_⟩
    · rw [List.getElem?_append_left (Nat.lt_trans hij hj), hsame, hx]
    · rw [List.getElem?_append_left hj, hx]
  · rintro h j hj ⟨i, hij, x, hi, hx⟩
    rw [List.getElem?_append_left (Nat.lt_trans hij hj)] at hi
    rw [List.getElem?_append_left hj] at hx
    exact h i j hij hj (hi.trans hx.symm)

/-- The first repetition stands behind distinct texts of which it is one. -/
theorem isFirstRepetition_iff {l : List String} {x : String} :
    IsFirstRepetition l x ↔ ∃ front back, l = front ++ x :: back ∧ x ∈ front ∧ front.Nodup := by
  constructor
  · rintro ⟨i, hx, ⟨j, hji, y, hy, hxy⟩, hfirst⟩
    obtain rfl := Option.some.inj (hxy.symm.trans hx)
    obtain ⟨hi, hget⟩ := List.getElem?_eq_some_iff.mp hx
    have hsplit : l = l.take i ++ y :: l.drop (i + 1) := by
      rw [← hget, ← List.drop_eq_getElem_cons hi, List.take_append_drop]
    have hlength : (l.take i).length = i := List.length_take_of_le (Nat.le_of_lt hi)
    have hmem : y ∈ l.take i := List.mem_of_getElem? ((List.getElem?_take_of_lt hji).trans hy)
    have hfront : ∀ j < (l.take i).length,
        ¬ RepeatsAt (l.take i ++ y :: l.drop (i + 1)) j := by
      rw [hlength, ← hsplit]
      exact hfirst
    exact ⟨l.take i, l.drop (i + 1), hsplit, hmem, forall_not_repeatsAt_iff.mp hfront⟩
  · rintro ⟨front, back, rfl, hmem, hdistinct⟩
    obtain ⟨j, hj, hget⟩ := List.mem_iff_getElem.mp hmem
    have hx : (front ++ x :: back)[front.length]? = some x := by
      rw [List.getElem?_append_right (Nat.le_refl _), Nat.sub_self, List.getElem?_cons_zero]
    refine ⟨front.length, hx, ⟨j, hj, x, ?_, hx⟩, forall_not_repeatsAt_iff.mpr hdistinct⟩
    rw [List.getElem?_append_left hj, List.getElem?_eq_getElem hj, hget]

/-! ## The scan -/

/-- The scan ends at the first text that it has seen before, in the front of the list or before it
came to the list. -/
theorem firstRepeated?_eq_some_iff {seen l : List String} {x : String} :
    firstRepeated? seen l = some x ↔
      ∃ front back, l = front ++ x :: back ∧ (x ∈ front ∨ x ∈ seen) ∧
        firstRepeated? seen front = none := by
  induction l generalizing seen with
  | nil => simp [firstRepeated?]
  | cons y rest ih =>
    rw [firstRepeated?]
    by_cases hy : y ∈ seen
    · rw [if_pos hy]
      constructor
      · intro h
        obtain rfl := Option.some.inj h
        exact ⟨[], rest, rfl, Or.inr hy, rfl⟩
      · rintro ⟨front, back, hl, -, hnone⟩
        cases front with
        | nil => rw [(List.cons.inj hl).1]
        | cons z front =>
          -- the scan would have ended at the first text already
          rw [← (List.cons.inj hl).1, firstRepeated?, if_pos hy] at hnone
          cases hnone
    · rw [if_neg hy, ih]
      constructor
      · rintro ⟨front, back, rfl, hx, hnone⟩
        refine ⟨y :: front, back, rfl, ?_, ?_⟩
        · simpa [or_assoc, or_left_comm] using hx
        · rw [firstRepeated?, if_neg hy, hnone]
      · rintro ⟨front, back, hl, hx, hnone⟩
        cases front with
        | nil =>
          obtain ⟨rfl, -⟩ := List.cons.inj hl
          exact absurd (hx.resolve_left List.not_mem_nil) hy
        | cons z front =>
          obtain ⟨rfl, rfl⟩ := List.cons.inj hl
          rw [firstRepeated?, if_neg hy] at hnone
          exact ⟨front, back, rfl, by simpa [or_assoc, or_left_comm] using hx, hnone⟩

/-- Of a list that it starts with, the scan finds the first repetition. -/
theorem firstRepeated?_nil_eq_some_iff {l : List String} {x : String} :
    firstRepeated? [] l = some x ↔ IsFirstRepetition l x := by
  rw [firstRepeated?_eq_some_iff, isFirstRepetition_iff]
  simp only [List.not_mem_nil, or_false, firstRepeated?_eq_none_iff, not_false_eq_true,
    implies_true, and_true]

/-! ## Validation -/

/-- The first of the three lists in which something is repeated, by what its entries are called, and
the first entry of it that is. -/
inductive Seed.RepeatsFirst (s : Seed) : String → String → Prop where
  /-- a user id -/
  | userId {value : String} (first : IsFirstRepetition (s.users.map User.id) value) :
      RepeatsFirst s "user id" value
  /-- a username, where no user id is -/
  | username {value : String} (ids : (s.users.map User.id).Nodup)
      (first : IsFirstRepetition (s.users.map User.username) value) :
      RepeatsFirst s "username" value
  /-- a repository id, where nothing of the users is -/
  | repoId {value : String} (ids : (s.users.map User.id).Nodup)
      (names : (s.users.map User.username).Nodup)
      (first : IsFirstRepetition (s.repos.map Repo.id) value) :
      RepeatsFirst s "repository id" value

theorem SeedKey.name_injective {key key' : SeedKey} (h : key.name = key'.name) : key = key' := by
  revert h
  cases key <;> cases key' <;> decide

namespace Configuration

theorem checkUnique_eq_error_iff {c : Configuration} {key : SeedKey} {e : ConfigurationError} :
    c.checkUnique key = .error e ↔
      ∃ value, IsFirstRepetition (c.entries key) value ∧ e = .duplicateSeed key value := by
  simp only [← firstRepeated?_nil_eq_some_iff]
  rw [checkUnique]
  cases firstRepeated? [] (c.entries key) <;> simp [eq_comm]

/-- The lists are checked in turn, and the first one that fails its check decides. -/
theorem validate_eq_error_iff {c : Configuration} {e : ConfigurationError} :
    c.validate = .error e ↔
      c.checkUnique .userId = .error e ∨
        c.checkUnique .userId = .ok () ∧ (c.checkUnique .username = .error e ∨
          c.checkUnique .username = .ok () ∧ c.checkUnique .repoId = .error e) := by
  have hthen (x y : Except ConfigurationError Unit) :
      (x >>= fun _ => y) = .error e ↔ x = .error e ∨ x = .ok () ∧ y = .error e := by
    cases x <;> simp [bind, Except.bind]
  rw [validate, hthen, hthen]

/-- What is reported is the first list with a repetition and the first entry that is one. -/
theorem validate_eq_error_iff_repeatsFirst {c : Configuration} {e : ConfigurationError} :
    c.validate = .error e ↔
      ∃ key value, c.seed.RepeatsFirst key.name value ∧ e = .duplicateSeed key value := by
  rw [validate_eq_error_iff, checkUnique_eq_ok_iff, checkUnique_eq_ok_iff]
  simp only [checkUnique_eq_error_iff]
  constructor
  · rintro (⟨value, hfirst, rfl⟩ | ⟨hid, ⟨value, hfirst, rfl⟩ | ⟨hname, value, hfirst, rfl⟩⟩)
    · exact ⟨.userId, value, .userId hfirst, rfl⟩
    · exact ⟨.username, value, .username hid hfirst, rfl⟩
    · exact ⟨.repoId, value, .repoId hid hname hfirst, rfl⟩
  · rintro ⟨key, value, h, rfl⟩
    -- the list is told from what its entries are called
    generalize hkey : key.name = name at h
    cases h with
    | userId hfirst =>
      obtain rfl : key = .userId := SeedKey.name_injective hkey
      exact Or.inl ⟨value, hfirst, rfl⟩
    | username hid hfirst =>
      obtain rfl : key = .username := SeedKey.name_injective hkey
      exact Or.inr ⟨hid, Or.inl ⟨value, hfirst, rfl⟩⟩
    | repoId hid hname hfirst =>
      obtain rfl : key = .repoId := SeedKey.name_injective hkey
      exact Or.inr ⟨hid, Or.inr ⟨hname, value, hfirst, rfl⟩⟩

end Configuration

/-- **The first repetition is reported.** A configuration is valid if no user id, no username and
no repository id is repeated in its seed. Any other is refused, with the first of these lists that
has a repetition and the first entry of it that is one. -/
theorem first_repetition_is_reported (c : Configuration) :
    (c.validate = .ok () ↔ (c.seed.users.map User.id).Nodup ∧
        (c.seed.users.map User.username).Nodup ∧ (c.seed.repos.map Repo.id).Nodup) ∧
      ∀ e, c.validate = .error e ↔
        ∃ key value, c.seed.RepeatsFirst key.name value ∧ e = .duplicateSeed key value := by
  refine ⟨?_, fun e => Configuration.validate_eq_error_iff_repeatsFirst⟩
  rw [Configuration.validate_eq_ok_iff, SeedKey.forall_iff]
  rfl

/-- Of two ids that are repeated, the one that comes back first is reported, whatever is repeated
in the lists behind; and names that differ in case are distinct. -/
example :
    let user (id username : String) : User := ⟨id, username, "", "", none, []⟩
    let seed (users : List User) : Configuration := ⟨.permissive, ⟨users, []⟩⟩
    (seed [user "a" "x", user "b" "x", user "b" "y", user "a" "z"]).validate
        = .error (.duplicateSeed .userId "b") ∧
      (seed [user "a" "x", user "A" "X"]).validate = .ok () := by
  decide +kernel

end ForgeQuery
