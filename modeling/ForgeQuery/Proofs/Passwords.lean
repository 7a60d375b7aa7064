import ForgeQuery.Proofs.History
import ForgeQuery.Proofs.Visibility

/-!
# Passwords

A password is compared at a login and looked at nowhere else. Two stores that differ in nothing but
passwords answer every list of requests alike, down to the order of the keys and to the errors, they
go on to differ in nothing but passwords, and each of them keeps the passwords that it had
(`passwords_stay_hidden`). This includes sub-selections that name nothing a user has, such as the
password itself, for which the whole user is shown.
-/

namespace ForgeQuery

/-- The results of a list of requests, each with its caller and on the store that is left by the
ones before it. -/
def answers (policy : Policy) :
    Store → List (Request × Option Caller) → List (Except ExecutionError Object)
  | _, [] => []
  | s, (request, caller) :: rest =>
    (tryExecute policy s request caller).result
      :: answers policy (execute policy s request caller).store rest

/-- A user is settled by the password and by all the rest. -/
theorem User.eq_of_masked {u v : User} (hmasked : u.masked = v.masked)
    (hpassword : u.password = v.password) : u = v := by
  have hrestore (w : User) : w = { w.masked with password := w.password } := rfl
  rw [hrestore u, hrestore v, hmasked, hpassword]

namespace Store

/-- The password of every user, in order and under the users' ids. -/
def passwords (s : Store) : List (String × String) := s.column User.password

/-- Two stores with the same users, but for their passwords, and the same repositories. -/
structure EqualButPasswords (s t : Store) : Prop where
  /-- the same users at the same places -/
  users : s.column User.masked = t.column User.masked
  /-- the same repositories -/
  repos : s.repos = t.repos

namespace EqualButPasswords

variable {s t : Store}

/-- No request of whatever context sees a password. -/
theorem alike (h : EqualButPasswords s t) (ctx : Context) : Alike ctx s t := by
  obtain ⟨users, repos⟩ := s
  obtain ⟨users', repos'⟩ := t
  obtain rfl : repos = repos' := h.repos
  exact ⟨h.users, fun _ _ => rfl, fun _ _ _ _ => rfl, fun _ _ _ _ => rfl⟩

/-- A request comes to the same on stores that differ in passwords alone, and leaves such stores. -/
theorem tryExecute (h : EqualButPasswords s t) (policy : Policy) (request : Request)
    (caller : Option Caller) :
    (tryExecute policy s request caller).result = (tryExecute policy t request caller).result ∧
      EqualButPasswords (tryExecute policy s request caller).store
        (tryExecute policy t request caller).store := by
  obtain ⟨hresult, hafter⟩ := (h.alike ⟨policy, caller⟩).tryExecute request
  refine ⟨hresult, hafter.users, ?_⟩
  rw [repos_tryExecute, repos_tryExecute, h.repos]

/-- So does a list of requests. -/
theorem executeAll (h : EqualButPasswords s t) (policy : Policy)
    (requests : List (Request × Option Caller)) :
    answers policy s requests = answers policy t requests ∧
      EqualButPasswords (executeAll policy s requests) (executeAll policy t requests) := by
  induction requests generalizing s t with
  | nil => exact ⟨rfl, h⟩
  | cons r rest ih =>
    obtain ⟨request, caller⟩ := r
    obtain ⟨hresult, hafter⟩ := h.tryExecute policy request caller
    obtain ⟨hrest, hlast⟩ := ih hafter
    exact ⟨List.cons_eq_cons.mpr ⟨hresult, hrest⟩, hlast⟩

end EqualButPasswords

/-- Users are settled by their passwords and by all the rest. -/
theorem users_eq_of_masked {s t : Store} (hmasked : s.column User.masked = t.column User.masked)
    (hpasswords : s.passwords = t.passwords) : s.users = t.users := by
  have hzip (s : Store) : (s.column User.masked).zip s.passwords
      = s.users.entries.map fun e => ((e.1, e.2.masked), (e.1, e.2.password)) := List.zip_map'
  have hboth := hzip s
  rw [hmasked, hpasswords, hzip t] at hboth
  refine Ordered.ext ((List.map_inj_right fun e e' he => ?_).mp hboth.symm)
  obtain ⟨hrest, hpassword⟩ := Prod.mk.inj he
  obtain ⟨hid, husers⟩ := Prod.mk.inj hrest
  exact Prod.ext hid (User.eq_of_masked husers (Prod.mk.inj hpassword).2)

/-- No request sets a password. -/
theorem passwords_tryExecute (policy : Policy) (s : Store) (request : Request)
    (caller : Option Caller) :
    (tryExecute policy s request caller).store.passwords = s.passwords := by
  refine column_tryExecute (fun u email => rfl) (fun u ids role => ?_) policy s request caller
  unfold User.promoted
  split <;> rfl

theorem passwords_executeAll (policy : Policy) (s : Store)
    (requests : List (Request × Option Caller)) :
    (executeAll policy s requests).passwords = s.passwords := by
  induction requests generalizing s with
  | nil => rfl
  | cons r rest ih =>
    obtain ⟨request, caller⟩ := r
    rw [executeAll, ih]
    exact passwords_tryExecute policy s request caller

end Store

/-- **Passwords never influence what is answered.** From two stores that differ in nothing but
passwords, the same requests with the same callers get the same answers. Behind them, and so behind
each of them, the stores still differ in nothing but passwords, which are the initial ones, and show
the same identities and profiles. -/
theorem passwords_stay_hidden (policy : Policy) {s t : Store} (h : s.EqualButPasswords t)
    (requests : List (Request × Option Caller)) :
    let s' := executeAll policy s requests
    let t' := executeAll policy t requests
    answers policy s requests = answers policy t requests ∧ s'.EqualButPasswords t' ∧
      s'.passwords = s.passwords ∧ t'.passwords = t.passwords ∧
      ∀ id, s'.caller? id = t'.caller? id ∧ s'.profile? id = t'.profile? id := by
  intro s' t'
  obtain ⟨hanswers, hequal⟩ := h.executeAll policy requests
  refine ⟨hanswers, hequal, Store.passwords_executeAll policy s requests,
    Store.passwords_executeAll policy t requests, fun id => ⟨?_, ?_⟩⟩
  · exact Store.user?_map_congr hequal.users (fun u => rfl) id
  · exact Store.user?_map_congr hequal.users (fun u => rfl) id

/-- Whoever asks for the password gets the same user, whichever password the user has, before and
after a change of the address. -/
theorem password_is_asked_for :
    let forge (password : String) :=
      Store.ofRecords [⟨"u1", "dev", password, "dev@forge", none, ["r1"]⟩] []
    let dev : Option Caller := some ⟨"u1", none, ["r1"]⟩
    let requests := [
      (Request.ofQuery "\x7b me \x7b password \x7d \x7d", dev),
      (Request.ofQuery "mutation \x7b updateProfile(email: \"new@forge\") \x7d", dev),
      (Request.ofQuery "\x7b user(id: \"u1\") \x7b password, email \x7d \x7d", dev)]
    (forge "pw").EqualButPasswords (forge "other") ∧
      (forge "pw").passwords ≠ (forge "other").passwords ∧
      answers .permissive (forge "pw") requests = answers .permissive (forge "other") requests := by
  intro forge dev requests
  have hequal : (forge "pw").EqualButPasswords (forge "other") := ⟨by decide, by decide⟩
  have hhidden := passwords_stay_hidden .permissive hequal requests
  exact ⟨hequal, by decide, hhidden.1⟩

end ForgeQuery
