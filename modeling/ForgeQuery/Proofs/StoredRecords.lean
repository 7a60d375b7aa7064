import ForgeQuery.Proofs.Grants
import ForgeQuery.Proofs.Replay

/-!
# Records under repeated ids

The lists that a store is built from may repeat ids and names. Of the records with one id the last
one is kept (`lastWith`), at the place of the first one; a login goes through the ids in this order
and looks at the records that are kept (`firstLogin`). So the credentials of a record that a later
one replaces are good for nothing.

No request changes any of this. The ids and their order, the repositories and the credentials are at
all times those that the lists settle (`repeated_ids_are_settled_by_the_lists`); of a kept user a
request changes other things alone.
-/

namespace ForgeQuery

/-! ## The last record with an id -/

section

variable {ρ : Type}

/-- The last of the records with the id. -/
def lastWith (idOf : ρ → String) (records : List ρ) (id : String) : Option ρ :=
  records.reverse.find? fun r => idOf r == id

/-- Behind the last record with an id there is no other one with it. -/
theorem lastWith_eq_some_iff {idOf : ρ → String} {records : List ρ} {id : String} {r : ρ} :
    lastWith idOf records id = some r ↔
      idOf r = id ∧ ∃ front behind, records = front ++ r :: behind ∧ id ∉ behind.map idOf := by
  rw [lastWith, List.find?_eq_some_iff_append, beq_iff_eq]
  refine and_congr_right fun _ => ?_
  -- what the search has passed over is what stands behind the record, the other way round
  constructor
  · rintro ⟨behind, front, hrecords, hbehind⟩
    refine ⟨front.reverse, behind.reverse, ?_, fun hmem => ?_⟩
    · rw [← List.reverse_reverse records, hrecords]
      simp
    · obtain ⟨later, hlater, hid⟩ := List.mem_map.mp hmem
      simpa [hid] using hbehind later (List.mem_reverse.mp hlater)
  · rintro ⟨front, behind, rfl, hbehind⟩
    refine ⟨behind.reverse, front.reverse, by simp, fun later hlater => ?_⟩
    have hid : idOf later ≠ id := by
      rintro rfl
      exact hbehind (List.mem_map_of_mem (List.mem_reverse.mp hlater))
    simpa using hid

/-- In a map of records under their ids the last record with an id is found. -/
theorem Ordered.get?_ofList_map (idOf : ρ → String) (records : List ρ) (id : String) :
    (Ordered.ofList (records.map fun r => (idOf r, r))).get? id = lastWith idOf records id := by
  rw [Ordered.get?_ofList, ← List.map_reverse, lastWith]
  induction records.reverse with
  | nil => rfl
  | cons r rest ih =>
    rw [List.map_cons, Ordered.find?, ih]
    by_cases h : idOf r = id <;> simp [h]

/-- Its ids stand in the order in which they first occur. -/
theorem Ordered.keys_ofList_map (idOf : ρ → String) (records : List ρ) :
    (Ordered.ofList (records.map fun r => (idOf r, r))).keys = (records.map idOf).eraseDups := by
  rw [Ordered.keys_ofList, List.map_map]
  rfl

end

/-! ## Logins -/

/-- The first of the ids under which a user with the credentials is found. -/
def firstLogin (ids : List String) (user? : String → Option User) (username password : String) :
    Option String :=
  ids.find? fun id => (user? id).any fun u => u.username == username && u.password == password

theorem exists_of_firstLogin {ids : List String} {user? : String → Option User}
    {username password id : String} (h : firstLogin ids user? username password = some id) :
    ∃ u, user? id = some u ∧ u.username = username ∧ u.password = password := by
  have hany := List.find?_some h
  rw [Option.any_eq_true] at hany
  obtain ⟨u, hu, hcredentials⟩ := hany
  rw [Bool.and_eq_true, beq_iff_eq, beq_iff_eq] at hcredentials
  exact ⟨u, hu, hcredentials⟩

namespace Store

variable {s : Store}

/-- A login can be told from the ids in order and the user under each of them. -/
theorem IsKeyed.authenticate_eq (hs : s.IsKeyed) (username password : String) :
    s.authenticate username password = firstLogin s.users.keys s.user? username password := by
  have hvalues : s.users.values = s.users.keys.filterMap s.user? :=
    s.users.filterMap_get?_keys.symm
  rw [authenticate, hvalues, List.find?_filterMap, ← firstLogin]
  cases h : firstLogin s.users.keys s.user? username password with
  | none => rfl
  | some id =>
    obtain ⟨u, hu, -⟩ := exists_of_firstLogin h
    rw [Option.bind_some, hu, Option.map_some, hs.id_eq hu]

/-! ## What the lists settle for good -/

/-- What is at all times settled by the records that a store was built from. -/
structure IsFiledFrom (users : List User) (repos : List Repo) (s : Store) : Prop where
  /-- every user is kept under the id of the record -/
  users_keyed : s.IsKeyed
  /-- so is every repository -/
  repos_keyed : s.ReposAreKeyed
  /-- each id of a user is listed once, in the order of first occurrence -/
  user_ids : s.users.keys = (users.map User.id).eraseDups ∧ s.users.keys.Nodup
  /-- so is each id of a repository -/
  repo_ids : s.repoIds = (repos.map Repo.id).eraseDups ∧ s.repoIds.Nodup
  /-- the repository with an id is the last one of the list -/
  repo?_eq : ∀ id, s.repo? id = lastWith Repo.id repos id
  /-- a login goes through the ids in this order and looks at the last record with each -/
  authenticate_eq : ∀ username password,
    s.authenticate username password
      = firstLogin (users.map User.id).eraseDups (lastWith User.id users) username password
  /-- nobody logs in with credentials that occur in replaced records only -/
  replaced : ∀ username password,
    (∀ front u behind, users = front ++ u :: behind → u.username = username →
      u.password = password → u.id ∈ behind.map User.id) →
    s.authenticate username password = none

variable {users : List User} {repos : List Repo}

/-- The user with an id is the last one of the list. -/
theorem user?_ofRecords (users : List User) (repos : List Repo) (id : String) :
    (ofRecords users repos).user? id = lastWith User.id users id :=
  Ordered.get?_ofList_map User.id users id

theorem authenticate_ofRecords (users : List User) (repos : List Repo)
    (username password : String) :
    (ofRecords users repos).authenticate username password
      = firstLogin (users.map User.id).eraseDups (lastWith User.id users) username password := by
  have hkeys : (ofRecords users repos).users.keys = (users.map User.id).eraseDups :=
    Ordered.keys_ofList_map User.id users
  have huser : (ofRecords users repos).user? = lastWith User.id users :=
    funext (user?_ofRecords users repos)
  rw [(isKeyed_ofRecords users repos).authenticate_eq, hkeys, huser]

theorem isFiledFrom_ofRecords (users : List User) (repos : List Repo) :
    (ofRecords users repos).IsFiledFrom users repos where
  users_keyed := isKeyed_ofRecords users repos
  repos_keyed := reposAreKeyed_ofRecords users repos
  user_ids := ⟨Ordered.keys_ofList_map User.id users, Ordered.distinct _⟩
  repo_ids := ⟨repoIds_ofRecords users repos, Ordered.distinct _⟩
  repo?_eq := Ordered.get?_ofList_map Repo.id repos
  authenticate_eq := authenticate_ofRecords users repos
  replaced username password h := by
    rw [authenticate_ofRecords, Option.eq_none_iff_forall_ne_some]
    intro id hid
    obtain ⟨u, hu, hname, hpassword⟩ := exists_of_firstLogin hid
    obtain ⟨rfl, front, behind, husers, hbehind⟩ := lastWith_eq_some_iff.mp hu
    exact hbehind (h front u behind husers hname hpassword)

namespace IsFiledFrom

/-- A request keeps the ids, the repositories and the credentials. -/
theorem execute (h : s.IsFiledFrom users repos) (policy : Policy) (request : Request)
    (caller : Option Caller) :
    (ForgeQuery.execute policy s request caller).store.IsFiledFrom users repos := by
  have hfollow := execute_eq_following policy h.users_keyed request caller
  have hrepos : (ForgeQuery.execute policy s request caller).store.repos = s.repos := by
    rw [hfollow]
    rfl
  have hkeys : (ForgeQuery.execute policy s request caller).store.users.keys = s.users.keys := by
    rw [hfollow, keys_following]
  have hlogin := authenticate_congr (credentials_execute policy s request caller)
  exact {
    users_keyed := hfollow ▸ h.users_keyed.following _
    repos_keyed := by
      rw [ReposAreKeyed, hrepos]
      exact h.repos_keyed
    user_ids := hkeys ▸ h.user_ids
    repo_ids := by
      rw [repoIds, hrepos]
      exact h.repo_ids
    repo?_eq := by
      intro id
      rw [repo?, hrepos]
      exact h.repo?_eq id
    authenticate_eq := fun username password =>
      (hlogin username password).trans (h.authenticate_eq username password)
    replaced := fun username password hno =>
      (hlogin username password).trans (h.replaced username password hno) }

/-- So does every sequence of requests. -/
theorem executeAll (h : s.IsFiledFrom users repos) (policy : Policy)
    (requests : List (Request × Option Caller)) :
    (ForgeQuery.executeAll policy s requests).IsFiledFrom users repos := by
  induction requests generalizing s with
  | nil => exact h
  | cons r rest ih => exact ih (h.execute policy r.1 r.2)

end IsFiledFrom

end Store

/-- **Repeated ids are settled by the lists** that a store is built from, whatever they repeat: of
the users with one id, as of the repositories, the last one is found under it. What the ids are, in
which order they stand and who logs in stays as it is after every sequence of requests. -/
theorem repeated_ids_are_settled_by_the_lists (users : List User) (repos : List Repo) :
    let s := Store.ofRecords users repos
    (∀ id, s.user? id = lastWith User.id users id) ∧ s.IsFiledFrom users repos ∧
      ∀ (policy : Policy) (requests : List (Request × Option Caller)),
        (executeAll policy s requests).IsFiledFrom users repos := by
  intro s
  have hs : s.IsFiledFrom users repos := Store.isFiledFrom_ofRecords users repos
  exact ⟨Store.user?_ofRecords users repos, hs, hs.executeAll⟩

/-- A user is listed twice, with a namesake in between. The later record is found at the place of
the earlier one: it is the one that a login with the common credentials goes to, and the password
in the earlier one is good for nothing, also after a promotion. -/
theorem later_record_takes_the_place :
    let users : List User := [⟨"u1", "dev", "old", "dev@forge", none, []⟩,
      ⟨"u2", "dev", "new", "ops@forge", none, []⟩, ⟨"u1", "dev", "new", "dev@home", none, []⟩]
    let repos : List Repo := [⟨"r1", "tools", 5, "Rust", true, none⟩,
      ⟨"r2", "vault", 0, "Rust", true, none⟩, ⟨"r1", "lib", 7, "C", false, none⟩]
    let promotion := Request.ofQuery
      "mutation \x7b promoteUser(userId: \"u1\", role: \"admin\") \x7d"
    let s := Store.ofRecords users repos
    let t := executeAll .permissive s [(promotion, some ⟨"u2", none, []⟩)]
    s.user? "u1" = some ⟨"u1", "dev", "new", "dev@home", none, []⟩ ∧
      t.user? "u1" = some ⟨"u1", "dev", "new", "dev@home", some adminRole, ["r1", "r2"]⟩ ∧
      t.users.keys = ["u1", "u2"] ∧ t.repo? "r1" = some ⟨"r1", "lib", 7, "C", false, none⟩ ∧
      t.authenticate "dev" "new" = some "u1" ∧ t.authenticate "dev" "old" = none := by
  intro users repos promotion s t
  obtain ⟨huser, -, hafter⟩ := repeated_ids_are_settled_by_the_lists users repos
  have ht : t.IsFiledFrom users repos := hafter .permissive _
  exact ⟨(huser "u1").trans (by decide), by decide +kernel, ht.user_ids.1.trans (by decide),
    (ht.repo?_eq "r1").trans (by decide), (ht.authenticate_eq "dev" "new").trans (by decide),
    (ht.authenticate_eq "dev" "old").trans (by decide)⟩

end ForgeQuery
