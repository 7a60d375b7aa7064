import ForgeQuery.Proofs.Failure
import ForgeQuery.Proofs.Ownership
import ForgeQuery.Proofs.SessionTable

/-!
# Grants stay

With the privileged role a user is given every repository, and no later promotion, demotion or
profile update takes them away again. Whoever holds an open token of the user sees all of them from
then on: `repos` answers with every record of the store, once, in order and in whole
(`granted_repositories_stay_visible`).

The history of a run through the session table is that of its requests, and the store at the end of
the run is the one that follows it (`World.run_store_eq_following`). A history with a grant in it
leaves the repository ids of the store in the record of the user. These are the keys of the
repositories, each of which is looked up again when the user asks for them.
-/

namespace ForgeQuery

/-! ## Histories of runs -/

namespace World

/-- What an action adds to the history. -/
def resolutions (policy : Policy) (w : World) : Action → List Resolution
  | .request request token =>
    request.resolutions policy w.store (token.bind (w.sessions.lookup? w.store))
  | .direct request caller => request.resolutions policy w.store caller
  | .login .. | .logout _ | .lookup _ => []

/-- The history of a run. -/
def history (policy : Policy) : World → List Action → List Resolution
  | _, [] => []
  | w, a :: rest => w.resolutions policy a ++ history policy (w.step policy a) rest

variable {w : World}

theorem step_store_eq_following (policy : Policy) (hw : w.store.IsKeyed) (a : Action) :
    (w.step policy a).store = w.store.following (w.resolutions policy a) := by
  cases a with
  | login | logout | lookup => exact (Store.following_nil w.store).symm
  | request request token => exact execute_eq_following policy hw request _
  | direct request caller => exact execute_eq_following policy hw request caller

/-- **The store at the end of a run follows its history.** -/
theorem run_store_eq_following (policy : Policy) (hw : w.store.IsKeyed) (actions : List Action) :
    (w.run policy actions).store = w.store.following (w.history policy actions) := by
  induction actions generalizing w with
  | nil => exact (Store.following_nil w.store).symm
  | cons a rest ih =>
    have hstep := step_store_eq_following policy hw a
    have hkeyed : (w.step policy a).store.IsKeyed := by
      rw [hstep]
      exact hw.following _
    calc ((w.step policy a).run policy rest).store
        = (w.step policy a).store.following ((w.step policy a).history policy rest) := ih hkeyed
      _ = w.store.following (w.history policy (a :: rest)) := by
          rw [hstep, ← Store.following_append]
          rfl

end World

/-! ## Users behind a grant -/

/-- A user is found as the history has left the record. -/
theorem Store.user?_following (h : List Resolution) (s : Store) (id : String) :
    (s.following h).user? id = (s.user? id).map (User.following s.repoIds h) :=
  s.find?_column (User.following s.repoIds h) id

theorem Store.IsKeyed.id_eq {s : Store} (hs : s.IsKeyed) {id : String} {user : User}
    (h : s.user? id = some user) : user.id = id :=
  hs (id, user) (Ordered.mem_of_find?_eq_some h)

/-- Whether the resolution is a promotion to the privileged role of the user with an id. -/
def Resolution.Grants (id : String) (r : Resolution) : Prop :=
  r.call.root = .promoteUser ∧ r.call.field.argument? "userId" = some id ∧
    r.call.field.argument? "role" = some adminRole

theorem Resolution.Grants.grantsTo {id : String} {r : Resolution} (h : r.Grants id) :
    r.grantsTo id = true := by
  rw [Resolution.grantsTo, Resolution.roleFor?, if_pos ⟨h.1, h.2.1⟩, h.2.2]
  exact beq_self_eq_true _

/-- **A grant stays**, wherever it stands in the history. -/
theorem Store.IsKeyed.repos_following {s : Store} (hs : s.IsKeyed) {h : List Resolution}
    {id : String} (hgrant : ∃ r ∈ h, r.Grants id) {user : User}
    (huser : (s.following h).user? id = some user) : user.repos = s.repoIds := by
  rw [Store.user?_following] at huser
  obtain ⟨before, hbefore, rfl⟩ := Option.map_eq_some_iff.mp huser
  have hany : h.any (Resolution.grantsTo before.id) = true := by
    obtain ⟨r, hr, hgrants⟩ := hgrant
    rw [hs.id_eq hbefore]
    exact List.any_eq_true.mpr ⟨r, hr, hgrants.grantsTo⟩
  exact if_pos hany

/-! ## What an owner of everything sees -/

/-- The repositories of somebody who owns them all are those of the store. -/
theorem Store.filterMap_repo?_repoIds (s : Store) : s.repoIds.filterMap s.repo? = s.repos.values :=
  s.repos.filterMap_get?_keys

/-- Repositories stand in the order in which their ids first came. -/
theorem Store.repoIds_ofRecords (users : List User) (repos : List Repo) :
    (Store.ofRecords users repos).repoIds = (repos.map Repo.id).eraseDups := by
  refine (Ordered.keys_ofList _).trans ?_
  rw [List.map_map]
  rfl

/-- The records are seen under their ids, each of which is that of one record. -/
theorem Store.ReposAreKeyed.map_id_values {s : Store} (hs : s.ReposAreKeyed) :
    s.repos.values.map Repo.id = s.repoIds := by
  rw [Ordered.values, List.map_map]
  exact List.map_congr_left hs

/-- Whoever owns every repository is answered with all of them. -/
theorem execute_repos {request : Request} (hquery : request.query = some "\x7b repos \x7d")
    (policy : Policy) {s : Store} {who : Caller} (hwho : who.repos = s.repoIds) :
    (execute policy s request (some who)).result
      = .ofData (.ofList [("repos", .array (s.repos.values.map fun r => r.entity.project none))])
      := by
  have hdoc : request.document = .ok ⟨.query, none, none, "repos".toList⟩ :=
    Request.document_eq_ok hquery (by decide) (by decide +kernel)
  have hcalls : (Document.mk .query none none "repos".toList).calls
      = [⟨.repos, ⟨"repos", ∅, none⟩⟩] := by
    decide +kernel
  have hrepos : ((Call.mk .repos ⟨"repos", ∅, none⟩).resolve ⟨policy, some who⟩).result s
      = .ok (.array (s.repos.values.map fun r => r.entity.project none)) := by
    rw [Call.resolve, RootField.resolve, (resolveRepos_ends policy who _ s).result_eq, hwho,
      Store.filterMap_repo?_repoIds]
  have hperform : (perform ⟨policy, some who⟩ [⟨.repos, ⟨"repos", ∅, none⟩⟩] s).1
      = .ok [("repos", .array (s.repos.values.map fun r => r.entity.project none))] :=
    congrArg Prod.fst (perform_cons_ok hrepos [])
  have hresult := (tryExecute_operation hdoc (by decide) policy s (some who)).1
  rw [hcalls, hperform] at hresult
  exact congrArg Response.ofResult hresult

/-- Whether the holder of a token sees every repository, under every policy. -/
structure SeesEverything (w : World) (token : String) (id : String) : Prop where
  /-- the caller behind the token is the user, and may read every repository -/
  caller : ∃ who, w.sessions.lookup? w.store token = some who ∧ who.id = id ∧
    ∀ (policy : Policy), ∀ repo ∈ w.store.repoIds, policy.canReadRepo who repo = true
  /-- asked for repositories, the store answers with every record in order and in whole -/
  repos : ∀ (policy : Policy) (request : Request), request.query = some "\x7b repos \x7d" →
    (executeWithSession policy w.store w.sessions request (some token)).result
      = .ofData (.ofList
          [("repos", .array (w.store.repos.values.map fun r => r.entity.project none))])

/-- The holder of a token sees every repository if they are all in the user's record. -/
theorem SeesEverything.of_owner {w : World} {token id : String} {user : User}
    (htoken : w.sessions.holders.get? token = some id) (huser : w.store.user? id = some user)
    (hid : user.id = id) (hrepos : user.repos = w.store.repoIds) : SeesEverything w token id := by
  have hlookup : w.sessions.lookup? w.store token = some user.caller := by
    rw [Sessions.lookup?, htoken, Option.bind_some, Store.caller?, huser]
    rfl
  refine ⟨⟨user.caller, hlookup, hid, fun policy repo hrepo => ?_⟩, fun policy request hquery => ?_⟩
  · cases policy with
    | permissive => rfl
    | enforced =>
      rw [← hrepos] at hrepo
      exact List.contains_iff_mem.mpr hrepo
  · rw [executeWithSession, Option.bind_some, hlookup]
    exact execute_repos hquery policy hrepos

/-- **Granted repositories stay visible.** At every point of every run from a store of records,
under either policy, a user who has been promoted to the privileged role on the way sees every
repository with every open token. The repositories are the initial ones, one for each id, in the
order in which the ids first came. -/
theorem granted_repositories_stay_visible (policy : Policy) (users : List User) (repos : List Repo)
    (actions : List Action) (id : String) :
    let s := Store.ofRecords users repos
    let w := (World.start s).run policy actions
    (∃ r ∈ (World.start s).history policy actions, r.Grants id) →
      (∀ token, w.sessions.holders.get? token = some id → SeesEverything w token id) ∧
        w.store.repos = s.repos ∧ (w.store.repos.values.map Repo.id).Nodup ∧
        w.store.repos.values.map Repo.id = (repos.map Repo.id).eraseDups := by
  intro s w hgrant
  have hs : s.IsKeyed := Store.isKeyed_ofRecords users repos
  have hstore : w.store = s.following ((World.start s).history policy actions) :=
    World.run_store_eq_following policy hs actions
  have hrepos : w.store.repos = s.repos := by
    rw [hstore]
    rfl
  have hids : w.store.repos.values.map Repo.id = s.repoIds := by
    rw [hrepos]
    exact (Store.reposAreKeyed_ofRecords users repos).map_id_values
  refine ⟨fun token htoken => ?_, hrepos, ?_, ?_⟩
  · obtain ⟨o⟩ := exists_openedBy htoken
    obtain ⟨user, huser, hid⟩ := o.exists_user hs
    refine .of_owner htoken huser hid ?_
    have hgranted : (s.following ((World.start s).history policy actions)).user? id = some user :=
      hstore ▸ huser
    rw [hs.repos_following hgrant hgranted, Store.repoIds, Store.repoIds, hrepos]
  · rw [hids]
    exact s.repos.distinct
  · exact hids.trans (Store.repoIds_ofRecords users repos)

/-- A developer who has become an admin, and then a guest with a new address, still sees every
repository, with a token from before and under the enforced policy as well. -/
theorem demoted_admin_sees_everything :
    let users : List User := [⟨"u1", "dev", "pw", "dev@forge", none, []⟩]
    let repos : List Repo := [⟨"r1", "tools", 5, "Rust", true, none⟩,
      ⟨"r2", "vault", 0, "Rust", true, some "flag"⟩]
    let promotion := Request.ofQuery
      "mutation \x7b promoteUser(userId: \"u1\", role: \"admin\"), me, promoteUser \x7d"
    let demotion := Request.ofQuery ("mutation \x7b promoteUser(userId: \"u1\", role: \"guest\"), "
      ++ "updateProfile(email: \"new@forge\") \x7d")
    let question := Request.ofQuery "\x7b repos \x7d"
    let actions : List Action := [.login "t" "dev" "pw", .request promotion (some "t"),
      .request demotion (some "t")]
    let w := (World.start (Store.ofRecords users repos)).run .permissive actions
    w.store.user? "u1" = some ⟨"u1", "dev", "pw", "new@forge", some "guest", ["r1", "r2"]⟩ ∧
      w.store.repos.values = repos ∧
      (executeWithSession .enforced w.store w.sessions question (some "t")).result
        = .ofData (.ofList
            [("repos", .array (w.store.repos.values.map fun r => r.entity.project none))]) := by
  intro users repos promotion demotion question actions w
  have hgrant : ∃ r ∈ (World.start (Store.ofRecords users repos)).history .permissive actions,
      r.Grants "u1" := by
    refine ⟨⟨some ⟨"u1", none, []⟩, ⟨.promoteUser, ⟨"promoteUser",
      .ofList [("userId", "u1"), ("role", "admin")], none⟩⟩⟩, ?_, rfl, by decide, by decide⟩
    decide +kernel
  have hsees := (granted_repositories_stay_visible .permissive users repos actions "u1" hgrant).1
  exact ⟨by decide +kernel, by decide +kernel,
    (hsees "t" (by decide +kernel)).repos .enforced question rfl⟩

end ForgeQuery
