import ForgeQuery.Proofs.Conformance
import ForgeQuery.Proofs.Ownership

/-!
# The list of repositories and the single lookup

Under the enforced policy there are two ways to the repositories of a caller. `repos` goes through
the ids in the caller's list, and `repo` takes an id and has the policy look for that of the record
in the list. In a store that is built from records both give access to the same repositories and
show the same of them, also if ids in the list are repeated or have no record
(`list_agrees_with_lookups`).
-/

namespace ForgeQuery

namespace Store

variable {s : Store} {readable : String → Bool} {sub : Option Text}

/-- Whether there is a repository with the id. -/
def hasRepo (s : Store) (id : String) : Bool := (s.repo? id).isSome

/-- A repository that may be read is shown. -/
theorem ReposAreKeyed.shownRepo_of_readable (h : s.ReposAreKeyed) {id : String}
    (hid : readable id = true) {r : Repo} (hr : s.repo? id = some r) :
    s.shownRepo readable (some id) sub = r.entity.project sub := by
  rw [shownRepo, Option.bind_some, hr]
  have hread : readable r.id = true := by rwa [h.id_eq hr]
  exact if_pos hread

/-- What is shown of a repository is not `null` exactly if there is one and it may be read. -/
theorem ReposAreKeyed.shownRepo_ne_null_iff (h : s.ReposAreKeyed) {id : String} :
    s.shownRepo readable (some id) sub ≠ .null ↔ readable id = true ∧ s.hasRepo id = true := by
  by_cases hid : readable id = true
  · cases hr : s.repo? id with
    | none => simp [shownRepo, hasRepo, hr]
    | some r =>
      obtain ⟨o, hproject, -⟩ := r.entity.exists_project (List.cons_ne_nil _ _) sub
      rw [h.shownRepo_of_readable hid hr, hproject, hasRepo, hr]
      simp [hid, Json.ofObject]
  · rw [h.shownRepo_eq_null (Bool.eq_false_iff.mpr hid)]
    simp [hid]

/-- The records of a list of ids that may be read are shown as each of them is shown by itself. -/
theorem ReposAreKeyed.map_project_filterMap (h : s.ReposAreKeyed) {ids : List String}
    (hids : ∀ id ∈ ids, readable id = true) :
    (ids.filterMap s.repo?).map (fun r => r.entity.project sub)
      = (ids.filter s.hasRepo).map fun id => s.shownRepo readable (some id) sub := by
  induction ids with
  | nil => rfl
  | cons id rest ih =>
    obtain ⟨hid, hrest⟩ := List.forall_mem_cons.mp hids
    cases hr : s.repo? id with
    | none =>
      have hno : ¬ s.hasRepo id = true := by simp [hasRepo, hr]
      rw [List.filterMap_cons_none hr, List.filter_cons_of_neg hno, ih hrest]
    | some r =>
      have hyes : s.hasRepo id = true := by simp [hasRepo, hr]
      rw [List.filterMap_cons_some hr, List.filter_cons_of_pos hyes, List.map_cons, List.map_cons,
        ih hrest, h.shownRepo_of_readable hid hr]

end Store

/-- **The list agrees with the lookups** under the enforced policy. Of the ids in the caller's list
those with a record are listed, in order and as often as they occur there, each with the answer that
a lookup of the id gives under the same sub-selection; and these are the ids of which a lookup does
not come to `null`. -/
theorem list_agrees_with_lookups (users : List User) (repos : List Repo) (caller : Caller)
    (sub : Option Text) :
    let s := Store.ofRecords users repos
    let ctx : Context := ⟨.enforced, some caller⟩
    let listed := caller.repos.filter s.hasRepo
    ∃ lookup : String → Json,
      (∀ (id : String) (field : FieldExpression), field.argument? "id" = some id →
        field.subSelection = sub → (RootField.repo.resolve ctx field).Ends s (.ok (lookup id)) s) ∧
      (∀ field : FieldExpression, field.subSelection = sub →
        (RootField.repos.resolve ctx field).Ends s (.ok (.array (listed.map lookup))) s) ∧
      ∀ id, lookup id ≠ .null ↔ id ∈ listed := by
  intro s ctx listed
  have hkeyed : s.ReposAreKeyed := Store.reposAreKeyed_ofRecords users repos
  have howned (id : String) : caller.owns id = true ↔ id ∈ caller.repos := List.contains_iff_mem
  refine ⟨fun id => s.shownRepo caller.owns (some id) sub, ?_, ?_, fun id => ?_⟩
  · intro id field hid hsub
    have hrepo := resolveRepo_ends .enforced caller field s
    rwa [hid, hsub] at hrepo
  · intro field hsub
    have hrepos := resolveRepos_ends .enforced caller field s
    rwa [hsub, hkeyed.map_project_filterMap fun id hid => (howned id).mpr hid] at hrepos
  · rw [hkeyed.shownRepo_ne_null_iff, howned, List.mem_filter]

/-- A list with a repeated id, one that has no record, and one repository that is missing from it:
the listed records are the answers of the lookups, and the missing one is not shown. -/
theorem repeated_id_is_listed_twice :
    let repos : List Repo := [⟨"r1", "tools", 5, "Rust", false, none⟩,
      ⟨"r2", "vault", 0, "Rust", true, some "flag"⟩, ⟨"r3", "docs", -2, "Lean", false, none⟩]
    let s := Store.ofRecords [] repos
    let ctx : Context := ⟨.enforced, some ⟨"u1", none, ["r3", "r9", "r1", "r3"]⟩⟩
    let sub := some " name ".toList
    let list : FieldExpression := ⟨"repos", ∅, sub⟩
    let single (id : String) : FieldExpression := ⟨"repo", .ofList [("id", id)], sub⟩
    let named (name : String) := Json.object [("name", .string name)]
    (RootField.repos.resolve ctx list).result s
        = .ok (.array [named "docs", named "tools", named "docs"]) ∧
      (RootField.repo.resolve ctx (single "r3")).result s = .ok (named "docs") ∧
      (RootField.repo.resolve ctx (single "r2")).result s = .ok .null ∧
      (RootField.repo.resolve ctx (single "r9")).result s = .ok .null := by
  intro repos s ctx sub list single named
  obtain ⟨lookup, hlookup, hlist, hnull⟩ :=
    list_agrees_with_lookups [] repos ⟨"u1", none, ["r3", "r9", "r1", "r3"]⟩ sub
  have hr1 : lookup "r1" = named "tools" :=
    ((hlookup "r1" (single "r1") rfl rfl).eq_of_result rfl).symm
  have hr3 : lookup "r3" = named "docs" :=
    ((hlookup "r3" (single "r3") rfl rfl).eq_of_result rfl).symm
  have hlisted (id : String) (hid : id ∉ ["r3", "r1", "r3"]) : lookup id = .null := by
    by_contra hne
    exact hid ((hnull id).mp hne)
  refine ⟨?_, ?_, ?_, ?_⟩
  · rw [(hlist list rfl).result_eq, ← hr1, ← hr3]
    rfl
  · rw [(hlookup "r3" (single "r3") rfl rfl).result_eq, hr3]
  · rw [(hlookup "r2" (single "r2") rfl rfl).result_eq, hlisted "r2" (by decide)]
  · rw [(hlookup "r9" (single "r9") rfl rfl).result_eq, hlisted "r9" (by decide)]

end ForgeQuery
