import ForgeQuery.Proofs.History
import ForgeQuery.Proofs.SessionRuns
import ForgeQuery.Proofs.Visibility

/-!
# Open sessions over whole runs

Which tokens are open, and for whom, can be told from the logins and logouts of a run alone: a token
is open for a user if a login has returned it for the user and no logout of it has come since
(`OpenedBy`). Requests in between open and close nothing, and no request makes credentials good or
bad; but they do change roles and repositories, and a token shows those that its user has now
(`sessions_follow_logins`).

Tokens come from outside. The one thing that is asked of them is that no login returns a token that
an earlier one has returned (`World.issued`).
-/

namespace ForgeQuery

/-! ## Replies -/

/-- What a client is told about an action. -/
inductive Reply where
  /-- the token of the session that has been opened, if one has -/
  | session (token : Option String)
  /-- whether the token that has been closed was open -/
  | closed (wasOpen : Bool)
  /-- the identity behind a token -/
  | identity (caller : Option Caller)
  /-- the response to a request -/
  | response (response : Response)

/-- The token that a login returns. -/
def Reply.token? : Reply → Option String
  | .session token => token
  | _ => none

namespace World

/-- The reply to an action. -/
def reply (policy : Policy) (w : World) : Action → Reply
  | .login token username password =>
    .session ((w.sessions.login? w.store token username password).map fun _ => token)
  | .logout token => .closed (w.sessions.isOpen token)
  | .lookup token => .identity (w.sessions.lookup? w.store token)
  | .request request token =>
    .response (executeWithSession policy w.store w.sessions request token).result
  | .direct request caller => .response (execute policy w.store request caller).result

/-- The tokens that the logins of a run return, in order. -/
def issued (policy : Policy) : World → List Action → List String
  | _, [] => []
  | w, a :: rest => (w.reply policy a).token?.toList ++ issued policy (w.step policy a) rest

variable {policy : Policy} {w : World}

/-- A token is returned by a login with the credentials of a user. -/
theorem token?_reply_eq_some_iff {a : Action} {token : String} :
    (w.reply policy a).token? = some token
      ↔ ∃ username password id, a = .login token username password ∧
        w.store.authenticate username password = some id := by
  cases a with
  | login t username password =>
    rw [reply, Reply.token?, Sessions.login?, Option.map_map, Option.map_eq_some_iff]
    constructor
    · rintro ⟨id, hid, rfl⟩
      exact ⟨username, password, id, rfl, hid⟩
    · rintro ⟨_, _, id, ⟨⟩, hid⟩
      exact ⟨id, hid, rfl⟩
  | logout | lookup | request | direct => simp [reply, Reply.token?]

theorem run_append (a b : List Action) : w.run policy (a ++ b) = (w.run policy a).run policy b :=
  List.foldl_append

theorem run_concat (actions : List Action) (a : Action) :
    w.run policy (actions ++ [a]) = (w.run policy actions).step policy a :=
  run_append actions [a]

theorem issued_append (a b : List Action) :
    w.issued policy (a ++ b) = w.issued policy a ++ (w.run policy a).issued policy b := by
  induction a generalizing w with
  | nil => rfl
  | cons x a ih => rw [List.cons_append, issued, issued, ih, List.append_assoc]; rfl

/-! ## One action and the table -/

/-- A login with the credentials of a user opens the token that it returns. -/
theorem get?_step_login {token username password id : String}
    (h : w.store.authenticate username password = some id) (other : String) :
    (w.step policy (.login token username password)).sessions.holders.get? other
      = if other = token then some id else w.sessions.holders.get? other := by
  rw [step, Sessions.login?, h]
  exact Ordered.get?_insert w.sessions.holders token other id

/-- A logout closes its token and no other. -/
theorem get?_step_logout (token other : String) :
    (w.step policy (.logout token)).sessions.holders.get? other
      = if other = token then none else w.sessions.holders.get? other :=
  Ordered.get?_erase w.sessions.holders token other

/-- An action that neither returns nor closes a token leaves it as it is. -/
theorem get?_step {a : Action} {token : String} (hissued : (w.reply policy a).token? ≠ some token)
    (hlogout : a ≠ .logout token) :
    (w.step policy a).sessions.holders.get? token = w.sessions.holders.get? token := by
  cases a with
  | login t username password =>
    cases hid : w.store.authenticate username password with
    | none =>
      rw [step, Sessions.login?, hid]
      rfl
    | some id =>
      have hne : token ≠ t := by
        rintro rfl
        exact hissued (token?_reply_eq_some_iff.mpr ⟨username, password, id, rfl, hid⟩)
      rw [get?_step_login hid, if_neg hne]
  | logout t =>
    have hne : token ≠ t := by
      rintro rfl
      exact hlogout rfl
    rw [get?_step_logout, if_neg hne]
  | lookup | request | direct => rfl

/-- So does a run of such actions. -/
theorem get?_run {actions : List Action} {token : String}
    (hissued : token ∉ w.issued policy actions) (hlogout : .logout token ∉ actions) :
    (w.run policy actions).sessions.holders.get? token = w.sessions.holders.get? token := by
  induction actions generalizing w with
  | nil => rfl
  | cons a rest ih =>
    rw [issued, List.mem_append, not_or, Option.mem_toList] at hissued
    rw [List.mem_cons, not_or] at hlogout
    refine (ih hissued.2 hlogout.2).trans (get?_step hissued.1 ?_)
    exact fun h => hlogout.1 h.symm

end World

/-! ## Tokens and the run -/

/-- A login of a run that has returned the token for the user with the id, with no logout of the
token behind it. -/
structure OpenedBy (policy : Policy) (s : Store) (actions : List Action) (token id : String) where
  /-- the actions in front of the login -/
  before : List Action
  /-- the login name -/
  username : String
  /-- the password -/
  password : String
  /-- the actions behind the login -/
  behind : List Action
  /-- together they are the run -/
  together : actions = before ++ .login token username password :: behind
  /-- the credentials were those of the user -/
  authenticated :
    ((World.start s).run policy before).store.authenticate username password = some id
  /-- the token has not been closed since -/
  kept : .logout token ∉ behind

namespace OpenedBy

variable {policy : Policy} {s : Store} {actions : List Action} {token id : String}

/-- Another action closes no token but its own. -/
def concat (o : OpenedBy policy s actions token id) {a : Action} (h : a ≠ .logout token) :
    OpenedBy policy s (actions ++ [a]) token id where
  before := o.before
  username := o.username
  password := o.password
  behind := o.behind ++ [a]
  together := by
    conv_lhs => rw [o.together]
    rw [List.append_assoc, List.cons_append]
  authenticated := o.authenticated
  kept := by
    rw [List.mem_append, List.mem_singleton, not_or]
    exact ⟨o.kept, h.symm⟩

end OpenedBy

section

variable {policy : Policy} {s : Store} {actions : List Action} {token id : String}

/-- A token that the table holds has been returned by a login and not been closed since. -/
theorem exists_openedBy
    (h : ((World.start s).run policy actions).sessions.holders.get? token = some id) :
    Nonempty (OpenedBy policy s actions token id) := by
  induction actions using List.reverseRecOn with
  | nil => cases h
  | append_singleton actions a ih =>
    rw [World.run_concat] at h
    -- the last action returns the token, or closes it, or leaves it as it is
    by_cases hissued :
        (((World.start s).run policy actions).reply policy a).token? = some token
    · obtain ⟨username, password, id', rfl, hid⟩ := World.token?_reply_eq_some_iff.mp hissued
      rw [World.get?_step_login hid, if_pos rfl] at h
      obtain rfl := Option.some.inj h
      exact ⟨⟨actions, username, password, [], rfl, hid, List.not_mem_nil⟩⟩
    · by_cases hlogout : a = .logout token
      · subst hlogout
        rw [World.get?_step_logout, if_pos rfl] at h
        cases h
      · rw [World.get?_step hissued hlogout] at h
        obtain ⟨o⟩ := ih h
        exact ⟨o.concat hlogout⟩

/-- If no token is returned twice, a token that has been returned for a user and not been closed
since is held for this user. -/
theorem OpenedBy.get?_eq (o : OpenedBy policy s actions token id)
    (hfresh : ((World.start s).issued policy actions).Nodup) :
    ((World.start s).run policy actions).sessions.holders.get? token = some id := by
  obtain ⟨before, username, password, behind, rfl, hid, hkept⟩ := o
  have hreturned : (((World.start s).run policy before).reply policy
      (.login token username password)).token? = some token :=
    World.token?_reply_eq_some_iff.mpr ⟨username, password, id, rfl, hid⟩
  rw [World.issued_append, World.issued, hreturned] at hfresh
  have hagain := (List.nodup_cons.mp (List.nodup_append.mp hfresh).2.1).1
  rw [World.run_append]
  refine (World.get?_run hagain hkept).trans ?_
  rw [World.get?_step_login hid, if_pos rfl]

end

/-! ## Credentials -/

/-- What every execution preserves of the store, every run does. -/
theorem World.store_run {policy : Policy} {P : Store → Prop}
    (hstep : ∀ s request caller, P s → P (execute policy s request caller).store) {w : World}
    (h : P w.store) (actions : List Action) : P (w.run policy actions).store := by
  refine World.run_invariant (P := fun w => P w.store) (fun a _ w hw => ?_) h
  cases a with
  | login | logout | lookup => exact hw
  | request request token => exact hstep w.store request _ hw
  | direct request caller => exact hstep w.store request caller hw

namespace Store

/-- What a login looks at of a user, and what it finds out. -/
def credentials (s : Store) : List (String × String × String × String) :=
  s.column fun u => (u.username, u.password, u.id)

/-- Logins are settled by the credentials. -/
theorem authenticate_congr {s t : Store} (h : s.credentials = t.credentials)
    (username password : String) :
    s.authenticate username password = t.authenticate username password := by
  have hlogin (s : Store) : s.authenticate username password
      = (s.credentials.find? fun e => e.2.1 == username && e.2.2.1 == password).map
          fun e => e.2.2.2 := by
    unfold authenticate credentials column Ordered.values
    rw [List.find?_map, List.find?_map, Option.map_map, Option.map_map]
    rfl
  rw [hlogin, hlogin, h]

/-- No request makes credentials good or bad. -/
theorem credentials_execute (policy : Policy) (s : Store) (request : Request)
    (caller : Option Caller) :
    (execute policy s request caller).store.credentials = s.credentials := by
  refine column_tryExecute (fun u email => rfl) (fun u ids role => ?_) policy s request caller
  unfold User.promoted
  split <;> rfl

/-- A user who logs in is known under the id that the login finds out. -/
theorem IsKeyed.exists_user {s : Store} (hs : s.IsKeyed) {username password id : String}
    (h : s.authenticate username password = some id) :
    ∃ user, s.user? id = some user ∧ user.id = id := by
  obtain ⟨user, huser, hid⟩ := Option.map_eq_some_iff.mp h
  obtain ⟨e, he, rfl⟩ := List.mem_map.mp (List.mem_of_find?_eq_some huser)
  refine ⟨e.2, ?_, hid⟩
  rw [← hid, hs e he]
  exact Ordered.get?_of_mem he

end Store

/-! ## The end of a run -/

section

variable {policy : Policy} {s : Store} {actions : List Action}

/-- At every point of a run credentials are good for the user that they are good for at first. -/
theorem authenticate_run (username password : String) :
    ((World.start s).run policy actions).store.authenticate username password
      = s.authenticate username password := by
  refine Store.authenticate_congr (World.store_run (P := fun s' => s'.credentials = s.credentials)
    (fun s' request caller hs' => ?_) rfl actions) username password
  exact (Store.credentials_execute policy s' request caller).trans hs'

theorem isKeyed_run (hs : s.IsKeyed) : ((World.start s).run policy actions).store.IsKeyed := by
  refine World.store_run (fun s' request caller hs' => ?_) hs actions
  rw [execute_eq_following policy hs']
  exact hs'.following _

/-- Open tokens are those that have been returned and not been closed. -/
theorem isOpen_run_iff (hfresh : ((World.start s).issued policy actions).Nodup) {token : String} :
    ((World.start s).run policy actions).sessions.isOpen token = true
      ↔ ∃ id, Nonempty (OpenedBy policy s actions token id) := by
  rw [Sessions.isOpen, Option.isSome_iff_exists]
  refine exists_congr fun id => ⟨exists_openedBy, ?_⟩
  rintro ⟨o⟩
  exact o.get?_eq hfresh

/-- Whoever has logged in is a user, whatever has happened since. -/
theorem OpenedBy.exists_user (hs : s.IsKeyed) {token id : String}
    (o : OpenedBy policy s actions token id) :
    ∃ user, ((World.start s).run policy actions).store.user? id = some user ∧ user.id = id := by
  have hlogin :
      ((World.start s).run policy actions).store.authenticate o.username o.password = some id := by
    have hbefore := o.authenticated
    rw [authenticate_run] at hbefore
    rw [authenticate_run, hbefore]
  exact (isKeyed_run hs).exists_user hlogin

/-- An open token shows its user's record as it is now. -/
theorem OpenedBy.lookup?_eq (hs : s.IsKeyed)
    (hfresh : ((World.start s).issued policy actions).Nodup) {token id : String}
    (o : OpenedBy policy s actions token id) :
    let w := (World.start s).run policy actions
    ∃ user, w.store.user? id = some user ∧
      w.sessions.lookup? w.store token = some ⟨id, user.role, user.repos⟩ := by
  intro w
  obtain ⟨user, huser, rfl⟩ := o.exists_user hs
  refine ⟨user, huser, ?_⟩
  rw [Sessions.lookup?, o.get?_eq hfresh, Option.bind_some, Store.caller?, huser]
  rfl

end

/-- At the end of a run, tokens and logins are what the actions of the run have made of them. -/
structure SessionsFollow (policy : Policy) (s : Store) (actions : List Action) (w : World) :
    Prop where
  /-- the tokens with an identity are those that have been returned and not been closed -/
  lookup_iff : ∀ token, (∃ caller, w.reply policy (.lookup token) = .identity (some caller)) ↔
    ∃ id, Nonempty (OpenedBy policy s actions token id)
  /-- the identity is that of the user who has logged in, by the record as it is now -/
  lookup_eq : ∀ token id, OpenedBy policy s actions token id →
    ∃ user, w.store.user? id = some user ∧
      w.reply policy (.lookup token) = .identity (some ⟨id, user.role, user.repos⟩)
  /-- a logout tells whether the token was open -/
  logout_iff : ∀ token, w.reply policy (.logout token) = .closed true ↔
    ∃ id, Nonempty (OpenedBy policy s actions token id)
  /-- it closes the token and leaves every other one to its holder -/
  logout_closes : ∀ token other,
    (w.step policy (.logout token)).sessions.holders.get? other
      = if other = token then none else w.sessions.holders.get? other
  /-- no request opens or closes a token -/
  request_keeps : ∀ request token caller,
    (w.step policy (.request request token)).sessions = w.sessions ∧
      (w.step policy (.direct request caller)).sessions = w.sessions
  /-- credentials are good for the user that they were good for at the beginning -/
  login_eq : ∀ token username password,
    w.store.authenticate username password = s.authenticate username password ∧
      w.reply policy (.login token username password)
        = (World.start s).reply policy (.login token username password)

/-- **Sessions follow logins and logouts**, in every run from an empty table in which no login
returns the token of an earlier one. A token is open exactly as long as its login has not been
followed by a logout, for the user who has logged in and with the record that the user has now. -/
theorem sessions_follow_logins (policy : Policy) (users : List User) (repos : List Repo)
    (actions : List Action) :
    let s := Store.ofRecords users repos
    ((World.start s).issued policy actions).Nodup →
      SessionsFollow policy s actions ((World.start s).run policy actions) := by
  intro s hfresh
  have hs : s.IsKeyed := Store.isKeyed_ofRecords users repos
  have hlookup (token id : String) (o : OpenedBy policy s actions token id) :=
    o.lookup?_eq hs hfresh
  refine ⟨fun token => ⟨?_, ?_⟩, fun token id o => ?_, fun token => ?_, ?_, ?_, ?_⟩
  · rintro ⟨caller, hcaller⟩
    obtain ⟨id, hid, -⟩ := Option.bind_eq_some_iff.mp (Reply.identity.inj hcaller)
    exact ⟨id, exists_openedBy hid⟩
  · rintro ⟨id, ⟨o⟩⟩
    obtain ⟨user, -, hidentity⟩ := hlookup token id o
    exact ⟨_, congrArg Reply.identity hidentity⟩
  · obtain ⟨user, huser, hidentity⟩ := hlookup token id o
    exact ⟨user, huser, congrArg Reply.identity hidentity⟩
  · rw [World.reply, Reply.closed.injEq]
    exact isOpen_run_iff hfresh
  · exact World.get?_step_logout
  · exact fun request token caller => ⟨rfl, rfl⟩
  · intro token username password
    refine ⟨authenticate_run username password, ?_⟩
    rw [World.reply, World.reply, Sessions.login?, Sessions.login?, authenticate_run,
      Option.map_map, Option.map_map]
    rfl

/-- A token that has been returned before a promotion shows the new role and the new repository. The
token that has been closed is not open, and neither is the one of the login that has failed. -/
theorem session_shows_promotion :
    let users : List User := [⟨"u1", "dev", "pw", "dev@forge", some "developer", []⟩]
    let repos : List Repo := [⟨"r1", "tools", 5, "Rust", true, none⟩]
    let promotion := Request.ofQuery
      "mutation \x7b promoteUser(userId: \"u1\", role: \"admin\") \x7d"
    let actions : List Action := [.login "t1" "dev" "pw", .login "t2" "dev" "pw",
      .login "t3" "dev" "guess", .request promotion (some "t1"), .logout "t2"]
    let w := (World.start (Store.ofRecords users repos)).run .permissive actions
    (World.start (Store.ofRecords users repos)).issued .permissive actions = ["t1", "t2"] ∧
      w.reply .permissive (.lookup "t1") = .identity (some ⟨"u1", some adminRole, ["r1"]⟩) ∧
      w.sessions.isOpen "t2" = false ∧ w.sessions.isOpen "t3" = false := by
  intro users repos promotion actions w
  have hissued : (World.start (Store.ofRecords users repos)).issued .permissive actions
      = ["t1", "t2"] := by
    decide +kernel
  have hfollow := sessions_follow_logins .permissive users repos actions (hissued ▸ by decide)
  obtain ⟨user, huser, hreply⟩ := hfollow.lookup_eq "t1" "u1"
    ⟨[], "dev", "pw", _, rfl, by decide +kernel, by simp⟩
  have hpromoted : w.store.user? "u1"
      = some ⟨"u1", "dev", "pw", "dev@forge", some adminRole, ["r1"]⟩ := by
    decide +kernel
  obtain rfl := Option.some.inj (huser.symm.trans hpromoted)
  exact ⟨hissued, hreply, by decide +kernel, by decide +kernel⟩

end ForgeQuery
