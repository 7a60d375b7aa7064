import ForgeQuery.Configuration.Text
import ForgeQuery.Proofs.OrderedLaws
import Mathlib.Data.List.Nodup

/-!
# Seeds that are indexed without loss

The store of a seed keeps the records under their ids, so that a repeated id costs a record, and a
login goes to the first user with the credentials, so that a repeated name is ambiguous. A seed is
indexed without loss (`Seed.IsIndexed`) if nothing of this happens: the store holds what the seed
holds, and logins and users go together one by one.

The seeds of valid configurations are exactly those (`valid_configurations_index_without_loss`).
This hangs on the validation alone, whatever a text is decoded to.
-/

namespace ForgeQuery

/-! ## Repetitions -/

/-- Nothing is repeated in a list without duplicates of which nothing has been seen before. -/
theorem firstRepeated?_eq_none_iff {seen l : List String} :
    firstRepeated? seen l = none ↔ l.Nodup ∧ ∀ x ∈ l, x ∉ seen := by
  induction l generalizing seen with
  | nil => simp [firstRepeated?]
  | cons x rest ih =>
    rw [firstRepeated?, List.nodup_cons, List.forall_mem_cons]
    by_cases hx : x ∈ seen
    · simp [hx]
    · rw [if_neg hx, ih]
      constructor
      · rintro ⟨hrest, hseen⟩
        have hboth (y : String) (hy : y ∈ rest) := not_or.mp (mt List.mem_cons.mpr (hseen y hy))
        exact ⟨⟨fun hmem => (hboth x hmem).1 rfl, hrest⟩, hx, fun y hy => (hboth y hy).2⟩
      · rintro ⟨⟨hmem, hrest⟩, -, hseen⟩
        refine ⟨hrest, fun y hy h => ?_⟩
        rcases List.mem_cons.mp h with rfl | h
        · exact hmem hy
        · exact hseen y hy h

/-- What holds of all three lists holds of each of them. -/
theorem SeedKey.forall_iff {P : SeedKey → Prop} :
    (∀ key, P key) ↔ P .userId ∧ P .username ∧ P .repoId := by
  constructor
  · exact fun h => ⟨h .userId, h .username, h .repoId⟩
  · rintro ⟨hid, hname, hrepo⟩ key
    cases key with
    | userId => exact hid
    | username => exact hname
    | repoId => exact hrepo

namespace Configuration

theorem checkUnique_eq_ok_iff {c : Configuration} {key : SeedKey} :
    c.checkUnique key = .ok () ↔ (c.entries key).Nodup := by
  have hnone : firstRepeated? [] (c.entries key) = none ↔ (c.entries key).Nodup := by
    rw [firstRepeated?_eq_none_iff]
    exact and_iff_left fun x _ => List.not_mem_nil
  rw [← hnone, checkUnique]
  cases firstRepeated? [] (c.entries key) <;> simp

/-- A configuration is valid if none of the three lists of its seed has duplicates. -/
theorem validate_eq_ok_iff {c : Configuration} :
    c.validate = .ok () ↔ ∀ key, (c.entries key).Nodup := by
  have hthen (x y : Except ConfigurationError Unit) :
      (x >>= fun _ => y) = .ok () ↔ x = .ok () ∧ y = .ok () := by
    cases x <;> simp [bind, Except.bind]
  rw [validate, hthen, hthen, checkUnique_eq_ok_iff, checkUnique_eq_ok_iff, checkUnique_eq_ok_iff,
    SeedKey.forall_iff]

end Configuration

/-! ## Stores of seeds -/

namespace Seed

variable {s : Seed}

theorem map_fst_users (s : Seed) : (s.users.map fun u => (u.id, u)).map Prod.fst
    = s.users.map User.id :=
  List.map_map

theorem map_fst_repos (s : Seed) : (s.repos.map fun r => (r.id, r)).map Prod.fst
    = s.repos.map Repo.id :=
  List.map_map

/-- Users with distinct ids are kept as they are. -/
theorem entries_users (h : (s.users.map User.id).Nodup) :
    s.store.users.entries = s.users.map fun u => (u.id, u) :=
  Ordered.entries_ofList (s.map_fst_users ▸ h)

/-- Repositories with distinct ids are kept as they are. -/
theorem entries_repos (h : (s.repos.map Repo.id).Nodup) :
    s.store.repos.entries = s.repos.map fun r => (r.id, r) :=
  Ordered.entries_ofList (s.map_fst_repos ▸ h)

/-- Every user with an id of its own is found under it. -/
theorem user?_eq (h : (s.users.map User.id).Nodup) {u : User} (hu : u ∈ s.users) :
    s.store.user? u.id = some u := by
  have hentry : (u.id, u) ∈ s.store.users.entries := by
    rw [entries_users h]
    exact List.mem_map_of_mem hu
  exact Ordered.get?_of_mem hentry

/-- Every repository with an id of its own is found under it. -/
theorem repo?_eq (h : (s.repos.map Repo.id).Nodup) {r : Repo} (hr : r ∈ s.repos) :
    s.store.repo? r.id = some r := by
  have hentry : (r.id, r) ∈ s.store.repos.entries := by
    rw [entries_repos h]
    exact List.mem_map_of_mem hr
  exact Ordered.get?_of_mem hentry

/-- A login goes through the users as they stand in the seed. -/
theorem authenticate_eq_find? (h : (s.users.map User.id).Nodup) (username password : String) :
    s.store.authenticate username password
      = (s.users.find? fun u => u.username == username && u.password == password).map User.id := by
  have hvalues : s.store.users.values = s.users := by
    rw [Ordered.values, entries_users h, List.map_map]
    exact List.map_id s.users
  rw [Store.authenticate, hvalues]

/-- Who logs in is a user with the credentials. -/
theorem exists_user_of_authenticate (h : (s.users.map User.id).Nodup)
    {username password id : String} (hlogin : s.store.authenticate username password = some id) :
    ∃ u ∈ s.users, u.id = id ∧ u.username = username ∧ u.password = password := by
  rw [authenticate_eq_find? h] at hlogin
  obtain ⟨u, hu, hid⟩ := Option.map_eq_some_iff.mp hlogin
  have hcredentials := List.find?_some hu
  rw [Bool.and_eq_true, beq_iff_eq, beq_iff_eq] at hcredentials
  exact ⟨u, List.mem_of_find?_eq_some hu, hid, hcredentials⟩

/-- A user with a name of its own can log in. -/
theorem authenticate_eq (h : (s.users.map User.id).Nodup)
    (hname : (s.users.map User.username).Nodup) {u : User} (hu : u ∈ s.users) :
    s.store.authenticate u.username u.password = some u.id := by
  cases hlogin : s.store.authenticate u.username u.password with
  | none =>
    rw [authenticate_eq_find? h, Option.map_eq_none_iff, List.find?_eq_none] at hlogin
    have hno := hlogin u hu
    simp at hno
  | some id =>
    obtain ⟨v, hv, rfl, hsame, -⟩ := exists_user_of_authenticate h hlogin
    obtain rfl : v = u := List.inj_on_of_nodup_map hname hv hu hsame
    rfl

end Seed

/-! ## Valid configurations -/

/-- Whether the store of a seed loses nothing of it. -/
structure Seed.IsIndexed (s : Seed) : Prop where
  /-- the store holds the users of the seed in order, each under its own id -/
  users : s.store.users.entries = s.users.map fun u => (u.id, u)
  /-- so it does with the repositories -/
  repos : s.store.repos.entries = s.repos.map fun r => (r.id, r)
  /-- every user is found under its id -/
  user_found : ∀ u ∈ s.users, s.store.user? u.id = some u
  /-- so is every repository -/
  repo_found : ∀ r ∈ s.repos, s.store.repo? r.id = some r
  /-- every user can log in -/
  login : ∀ u ∈ s.users, s.store.authenticate u.username u.password = some u.id
  /-- who logs in is the user with exactly these credentials -/
  login_only : ∀ username password id, s.store.authenticate username password = some id →
    ∃ u ∈ s.users, s.store.user? id = some u ∧
      u.id = id ∧ u.username = username ∧ u.password = password
  /-- a name is that of one user at most, whatever the password -/
  login_unique : ∀ username password password' id id',
    s.store.authenticate username password = some id →
      s.store.authenticate username password' = some id' → id = id'

/-- A seed without repetitions is indexed without loss. -/
theorem Seed.isIndexed_of_nodup {s : Seed} (hid : (s.users.map User.id).Nodup)
    (hname : (s.users.map User.username).Nodup) (hrepo : (s.repos.map Repo.id).Nodup) :
    s.IsIndexed where
  users := entries_users hid
  repos := entries_repos hrepo
  user_found _ hu := user?_eq hid hu
  repo_found _ hr := repo?_eq hrepo hr
  login _ hu := authenticate_eq hid hname hu
  login_only username password id hlogin := by
    obtain ⟨u, hu, rfl, hcredentials⟩ := exists_user_of_authenticate hid hlogin
    exact ⟨u, hu, user?_eq hid hu, rfl, hcredentials⟩
  login_unique username password password' id id' hlogin hlogin' := by
    obtain ⟨u, hu, rfl, rfl, -⟩ := exists_user_of_authenticate hid hlogin
    obtain ⟨v, hv, rfl, hsame, -⟩ := exists_user_of_authenticate hid hlogin'
    exact congrArg User.id (List.inj_on_of_nodup_map hname hu hv hsame.symm)

namespace Seed.IsIndexed

variable {s : Seed} (h : s.IsIndexed)

include h

theorem nodup_ids : (s.users.map User.id).Nodup := by
  rw [← s.map_fst_users, ← h.users]
  exact s.store.users.distinct

theorem nodup_repoIds : (s.repos.map Repo.id).Nodup := by
  rw [← s.map_fst_repos, ← h.repos]
  exact s.store.repos.distinct

/-- Two users with one name would both log in under it. -/
theorem nodup_usernames : (s.users.map User.username).Nodup := by
  refine List.Nodup.map_on (fun u hu v hv hname => ?_) (List.Nodup.of_map _ h.nodup_ids)
  have hlogin := h.login v hv
  rw [← hname] at hlogin
  exact List.inj_on_of_nodup_map h.nodup_ids hu hv
    (h.login_unique u.username u.password v.password u.id v.id (h.login u hu) hlogin)

end Seed.IsIndexed

/-- **Valid configurations index without loss**, and no others do: a configuration is valid exactly
if the store of its seed loses nothing, wherever the configuration comes from. A text gives a
configuration exactly if it decodes to it and this is the case. -/
theorem valid_configurations_index_without_loss (c : Configuration) :
    (c.validate = .ok () ↔ c.seed.IsIndexed) ∧
      ∀ t, Configuration.ofText t = .ok c ↔ Configuration.decode t = .ok c ∧ c.seed.IsIndexed := by
  have hvalid : c.validate = .ok () ↔ c.seed.IsIndexed := by
    rw [Configuration.validate_eq_ok_iff]
    constructor
    · exact fun h => Seed.isIndexed_of_nodup (h .userId) (h .username) (h .repoId)
    · intro h key
      cases key with
      | userId => exact h.nodup_ids
      | username => exact h.nodup_usernames
      | repoId => exact h.nodup_repoIds
  refine ⟨hvalid, fun t => ?_⟩
  rw [Configuration.ofText_eq_ok_iff, hvalid]

/-- The seed that is used when none is configured is one of those. -/
theorem standard_seed_isIndexed : Seed.standard.IsIndexed :=
  (valid_configurations_index_without_loss Configuration.standard).1.mp (by decide +kernel)

end ForgeQuery
