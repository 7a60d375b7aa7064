import ForgeQuery.Proofs.Passwords
import Mathlib.Data.List.Basic

/-!
# Repositories of others under the enforced policy

Under the enforced policy a caller sees the records of the repositories in the caller's list and of
no other. Stores that agree in these records may differ in all the others, in what they hold as well
as in whether there are any: a repository that is kept from the caller and one that is not known are
answered alike. A promotion reveals the ids of all repositories, but only an admin gets through with
one. Hence whatever a request comes to is settled by the users, the caller's repositories and, for an
admin, the repository ids in order (`unowned_repositories_stay_hidden`).

A repository is asked for by the key of its record, and the policy looks at the id in the record;
the two are the same in a store that is built from records.
-/

namespace ForgeQuery

namespace Store

/-- Whether every repository is kept under the id of the record. -/
def ReposAreKeyed (s : Store) : Prop := ∀ e ∈ s.repos.entries, e.2.id = e.1

theorem reposAreKeyed_ofRecords (users : List User) (repos : List Repo) :
    (ofRecords users repos).ReposAreKeyed := by
  intro e he
  obtain ⟨r, -, rfl⟩ := List.mem_map.mp (Ordered.mem_ofList he)
  rfl

variable {s t : Store}

theorem ReposAreKeyed.id_eq (h : s.ReposAreKeyed) {id : String} {r : Repo}
    (hr : s.repo? id = some r) : r.id = id :=
  h (id, r) (Ordered.mem_of_find?_eq_some hr)

/-- What may not be read is shown as what is not known. -/
theorem ReposAreKeyed.shownRepo_eq_null (h : s.ReposAreKeyed) {readable : String → Bool}
    {id : String} (hid : readable id = false) (sub : Option Text) :
    s.shownRepo readable (some id) sub = .null := by
  unfold shownRepo
  rw [Option.bind_some]
  cases hr : s.repo? id with
  | none => rfl
  | some r =>
    have hrefused : ¬ readable r.id = true := by
      rw [h.id_eq hr]
      exact Bool.eq_false_iff.mp hid
    exact if_neg hrefused

/-- A repository that both stores hold alike, or that may not be read, is shown alike. -/
theorem shownRepo_congr (hs : s.ReposAreKeyed) (ht : t.ReposAreKeyed) {readable : String → Bool}
    (h : ∀ id, readable id = true → s.repo? id = t.repo? id) (id : Option String)
    (sub : Option Text) : s.shownRepo readable id sub = t.shownRepo readable id sub := by
  cases id with
  | none => rfl
  | some id =>
    by_cases hid : readable id = true
    · rw [shownRepo, shownRepo, Option.bind_some, Option.bind_some, h id hid]
    · have hno := Bool.eq_false_iff.mpr hid
      rw [hs.shownRepo_eq_null hno, ht.shownRepo_eq_null hno]

/-- Under the enforced policy stores are alike that differ in repositories of others alone. -/
theorem alike_of_owned {caller : Option Caller} (hs : s.ReposAreKeyed) (ht : t.ReposAreKeyed)
    (husers : s.users = t.users)
    (howned : ∀ c, caller = some c → ∀ id ∈ c.repos, s.repo? id = t.repo? id)
    (hadmin : ∀ c, caller = some c → c.isAdmin = true → s.repoIds = t.repoIds) :
    Alike ⟨.enforced, caller⟩ s t where
  users := by rw [column, column, husers]
  owned c hc := List.filterMap_congr fun id hid => howned c hc id hid
  shown c hc id sub := by
    refine shownRepo_congr hs ht (fun id hid => ?_) id sub
    exact howned c hc id (List.contains_iff_mem.mp hid)
  granted c hc _ hmay := hadmin c hc hmay

end Store

/-- **Repositories of others stay hidden.** In two stores with the same users and the same records
of the caller's repositories, and for an admin with the same repository ids in order, the request of
a caller comes to the same under the enforced policy and leaves the same users. -/
theorem unowned_repositories_stay_hidden (users users' : List User) (repos repos' : List Repo)
    (caller : Option Caller) (request : Request) :
    let s := Store.ofRecords users repos
    let t := Store.ofRecords users' repos'
    s.users = t.users →
    (∀ c, caller = some c → ∀ id ∈ c.repos, s.repo? id = t.repo? id) →
    (∀ c, caller = some c → c.isAdmin = true → s.repoIds = t.repoIds) →
    (tryExecute .enforced s request caller).result = (tryExecute .enforced t request caller).result ∧
      (tryExecute .enforced s request caller).store.users
        = (tryExecute .enforced t request caller).store.users := by
  intro s t husers howned hadmin
  have halike := Store.alike_of_owned (Store.reposAreKeyed_ofRecords users repos)
    (Store.reposAreKeyed_ofRecords users' repos') husers howned hadmin
  obtain ⟨hresult, hafter⟩ := halike.tryExecute request
  refine ⟨hresult, Store.users_eq_of_masked hafter.users ?_⟩
  rw [Store.passwords_tryExecute, Store.passwords_tryExecute, Store.passwords, Store.passwords,
    Store.column, Store.column, husers]

/-- A developer asks for a vault of somebody else and gets the same answer whether there is one or
not; an admin promotes a user and gets the same answer whatever the vault holds. -/
theorem vault_is_asked_for :
    let users : List User := [⟨"u1", "dev", "pw", "dev@forge", some "developer", ["r1"]⟩]
    let tools : Repo := ⟨"r1", "tools", 5, "Rust", false, none⟩
    let vault (flag : String) : Repo := ⟨"r2", "vault", 0, "Rust", true, some flag⟩
    let dev : Caller := ⟨"u1", some "developer", ["r1"]⟩
    let admin : Caller := ⟨"u2", some adminRole, []⟩
    let question := Request.ofQuery "\x7b repos, repo(id: \"r2\") \x7b flag \x7d \x7d"
    let promotion := Request.ofQuery
      "mutation \x7b promoteUser(userId: \"u1\", role: \"admin\") \x7b repos \x7d \x7d"
    let s (flag : String) := Store.ofRecords users [tools, vault flag]
    let t := Store.ofRecords users [tools]
    (s "a").repo? "r2" ≠ t.repo? "r2" ∧
      (tryExecute .enforced (s "a") question (some dev)).result
        = (tryExecute .enforced t question (some dev)).result ∧
      (s "a").repo? "r2" ≠ (s "b").repo? "r2" ∧
      (tryExecute .enforced (s "a") promotion (some admin)).store.users
        = (tryExecute .enforced (s "b") promotion (some admin)).store.users := by
  intro users tools vault dev admin question promotion s t
  have hdev := unowned_repositories_stay_hidden users users [tools, vault "a"] [tools] (some dev)
    question rfl
  have hadmin := unowned_repositories_stay_hidden users users [tools, vault "a"]
    [tools, vault "b"] (some admin) promotion rfl
  refine ⟨by decide, (hdev ?_ ?_).1, by decide, (hadmin ?_ ?_).2⟩
  · rintro _ ⟨⟩ id hid
    rw [List.mem_singleton.mp hid]
    decide
  · rintro _ ⟨⟩ hc
    exact absurd hc (by decide)
  · rintro _ ⟨⟩ id hid
    exact absurd hid List.not_mem_nil
  · rintro _ ⟨⟩ -
    decide

end ForgeQuery
