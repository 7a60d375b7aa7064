import ForgeQuery.Proofs.Failure
import ForgeQuery.Proofs.Passwords

/-!
# Requests that are made again

A request that is made again, with the same caller, leaves the store as the first time has left it
(`replay_is_harmless`). This cannot be told call by call: a mutation may give a user one role and
then another one, and when it is made again the first of its calls does change the store. What
carries over is the history of the whole request. Its values are constants of the document, so that
following it twice is following it once (`Store.following_twice`), and the calls that are resolved
are the same each time, since they are settled by the ids of the users (`resolved_congr`).
-/

namespace ForgeQuery

/-! ## Histories followed twice -/

/-- The last value of a history is also the last one of the history twice in a row. -/
theorem User.following_twice (repoIds : List String) (h : List Resolution) (u : User) :
    u.following repoIds (h ++ h) = u.following repoIds h := by
  unfold User.following
  simp only [List.filterMap_append, List.getLast?_append, List.any_append, Option.or_self,
    Bool.or_self]

theorem Store.following_twice (h : List Resolution) (s : Store) :
    (s.following h).following h = s.following h := by
  rw [← Store.following_append]
  refine Store.ext_entries ?_ rfl
  simp only [Store.entries_following, User.following_twice]

/-- A history makes no user known or unknown. -/
theorem Store.keys_following (h : List Resolution) (s : Store) :
    (s.following h).users.keys = s.users.keys := by
  rw [Ordered.keys, Store.entries_following, List.map_map]
  rfl

/-! ## What is settled by the ids of the users -/

section

variable {s t : Store} (h : t.users.keys = s.users.keys)

include h

/-- The calls that are resolved are settled by the ids of the users. -/
theorem resolved_congr (ctx : Context) (calls : List Call) :
    resolved ctx calls t = resolved ctx calls s := by
  induction calls generalizing s t with
  | nil => rfl
  | cons c rest ih =>
    have hkeys (s : Store) : ((c.resolve ctx).after s).users.keys = s.users.keys :=
      (c.course ctx s).keys_eq
    have herror (e : ExecutionError) :
        (c.resolve ctx).result t = .error e ↔ (c.resolve ctx).result s = .error e := by
      rw [Call.resolve_eq_error_iff, Call.resolve_eq_error_iff, Call.failure?_congr h]
    rw [resolved, resolved]
    cases hs : (c.resolve ctx).result s with
    | error e => rw [(herror e).mpr hs]
    | ok v =>
      cases ht : (c.resolve ctx).result t with
      | error e =>
        rw [(herror e).mp ht] at hs
        cases hs
      | ok v' => rw [ih ((hkeys t).trans (h.trans (hkeys s).symm))]

/-- So is what a request adds to the history. -/
theorem resolutions_congr (policy : Policy) (request : Request) (caller : Option Caller) :
    request.resolutions policy t caller = request.resolutions policy s caller := by
  unfold Request.resolutions
  cases request.document with
  | error e => rfl
  | ok doc => simp only [resolved_congr h]

/-- So is whether a request fails, and with what. -/
theorem tryExecute_error_congr (policy : Policy) (request : Request) (caller : Option Caller)
    (e : ExecutionError) :
    (tryExecute policy t request caller).result = .error e
      ↔ (tryExecute policy s request caller).result = .error e := by
  cases hdoc : request.document with
  | error e' =>
    rw [tryExecute_result, tryExecute_result, Request.outcome, Request.outcome, hdoc]
  | ok doc =>
    by_cases hkind : doc.kind = .introspection
    · rw [tryExecute_introspection hdoc hkind, tryExecute_introspection hdoc hkind]
    · rw [tryExecute_eq_error_iff hdoc hkind, tryExecute_eq_error_iff hdoc hkind,
        Call.failure?_congr h]

end

/-! ## Requests that are made again -/

/-- A request that leaves the store as it is can be made any number of times. -/
theorem executeAll_replicate {policy : Policy} {s : Store} {request : Request}
    {caller : Option Caller} (h : (execute policy s request caller).store = s) (n : Nat) :
    executeAll policy s (List.replicate n (request, caller)) = s ∧
      answers policy s (List.replicate n (request, caller))
        = List.replicate n (tryExecute policy s request caller).result := by
  induction n with
  | zero => exact ⟨rfl, rfl⟩
  | succ n ih =>
    rw [List.replicate_succ, List.replicate_succ, executeAll, answers, h, ih.1, ih.2]
    exact ⟨rfl, rfl⟩

/-- **Replaying a request is harmless**, whatever the request is and also if it fails midway. The
store has to keep its users under their own ids, which a store of records does at all times
(`Store.isKeyed_ofRecords`, `Store.IsKeyed.following`). The second execution leaves the store that
the first one has left and fails exactly if the first one has, with the same error; and however
often the request is made after that, it comes to the same as the second time. -/
theorem replay_is_harmless (policy : Policy) {s : Store} (hs : s.IsKeyed) (request : Request)
    (caller : Option Caller) :
    let first := tryExecute policy s request caller
    let second := tryExecute policy first.store request caller
    second.store = first.store ∧
      (∀ e, second.result = .error e ↔ first.result = .error e) ∧
      ∀ n, answers policy s (List.replicate (n + 1) (request, caller))
          = first.result :: List.replicate n second.result ∧
        executeAll policy s (List.replicate (n + 1) (request, caller)) = first.store := by
  intro first second
  have hfirst : first.store = s.following (request.resolutions policy s caller) :=
    execute_eq_following policy hs request caller
  have hkeys : first.store.users.keys = s.users.keys := by
    rw [hfirst]
    exact Store.keys_following _ s
  have hagain : second.store = first.store := by
    have hkeyed : first.store.IsKeyed := hfirst ▸ hs.following _
    calc second.store
        = first.store.following (request.resolutions policy first.store caller) :=
          execute_eq_following policy hkeyed request caller
      _ = first.store.following (request.resolutions policy s caller) := by
          rw [resolutions_congr hkeys]
      _ = first.store := by rw [hfirst, Store.following_twice]
  refine ⟨hagain, tryExecute_error_congr hkeys policy request caller, fun n => ?_⟩
  obtain ⟨hstore, hanswers⟩ := executeAll_replicate hagain n
  exact ⟨congrArg (first.result :: ·) hanswers, hstore⟩

/-- A user is made an admin and an ordinary user again by a request that fails behind this. When it
is made again the user is an admin once more on the way, but it comes to the same. -/
theorem conflicting_promotions_are_replayed :
    let s := Store.ofRecords [⟨"u", "dev", "pw", "dev@forge", some "developer", []⟩]
      [⟨"r1", "tools", 5, "Rust", true, none⟩]
    let dev : Option Caller := some ⟨"u", some "developer", []⟩
    let body := "promoteUser(userId: \"u\", role: \"admin\"), "
      ++ "promoteUser(userId: \"u\"), promoteUser"
    let request := Request.ofQuery ("mutation \x7b" ++ body ++ "\x7d")
    let first := tryExecute .permissive s request dev
    let second := tryExecute .permissive first.store request dev
    first.store.user? "u" = some ⟨"u", "dev", "pw", "dev@forge", none, ["r1"]⟩ ∧
      second.store = first.store ∧ second.result = .error (.targetNotFound none) ∧
      executeAll .permissive s (List.replicate 7 (request, dev)) = first.store := by
  intro s dev body request first second
  have hs : s.IsKeyed := Store.isKeyed_ofRecords _ _
  obtain ⟨hstore, herror, hagain⟩ := replay_is_harmless .permissive hs request dev
  have hdoc : request.document = .ok ⟨.mutation, none, none, body.toList⟩ := by decide +kernel
  have hfirst : first.result = .error (.targetNotFound none) :=
    (tryExecute_eq_error_iff hdoc (by decide)).mpr (by decide +kernel)
  exact ⟨by decide +kernel, hstore, (herror _).mpr hfirst, (hagain 6).2⟩

end ForgeQuery
