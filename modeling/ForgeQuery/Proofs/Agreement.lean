import ForgeQuery.Proofs.Commuting
import ForgeQuery.Proofs.Projecting

/-!
# Reads that agree with each other and with writes

A user is shown by `me`, by `user`, by a promotion, by a profile update, and by `Store.profile?`
outside of any request. All of them take what they show from the user's record, the two mutations
from the record as they leave it. So `me` and `user` answer alike whoever asks, a promotion answers
what `user` answers behind it, and a profile update answers the profile less the repositories. Who
has no record is shown nothing, and changes nothing by an update (`reads_agree`).
-/

namespace ForgeQuery

namespace Store

variable {s : Store} {id : String} {user : User}

theorem shown_of_user (h : s.user? id = some user) (view : User → Entity UserField)
    (sub : Option Text) : s.shown view (some id) sub = (view user).project sub := by
  rw [shown, Option.bind_some, h]

theorem shown_of_unknown (h : s.user? id = none) (view : User → Entity UserField)
    (sub : Option Text) : s.shown view (some id) sub = .null := by
  rw [shown, Option.bind_some, h]

theorem profile?_of_user (h : s.user? id = some user) :
    s.profile? id = some (.ofObject user.entity.toObject) := by
  rw [profile?, h, Option.map_some, Entity.project_none]

/-- A profile update makes nobody known or unknown. -/
theorem exists_user_of_mailed (h : s.user? id = some user) (email : Option String) :
    ∃ user', (s.mailed id email).user? id = some user' := by
  cases email with
  | none => exact ⟨user, h⟩
  | some email =>
    rw [mailed, user?_updateUser, if_pos rfl, h]
    exact ⟨_, rfl⟩

/-- A profile update of nobody changes nothing. -/
theorem mailed_of_unknown (h : s.user? id = none) (email : Option String) :
    s.mailed id email = s := by
  cases email with
  | none => rfl
  | some email => exact updateUser_of_none h _

end Store

/-- What a profile update shows is the whole of a user less the repositories. -/
theorem User.toObject_profileEntity (u : User) :
    u.profileEntity.toObject = u.entity.toObject.erase "repos" := by
  have hprofile : u.profileEntity.names.Nodup := u.hasDistinctFields_profileEntity.nodup_names
  have huser : u.entity.names.Nodup := u.hasDistinctFields_entity.nodup_names
  refine Ordered.ext ?_
  calc u.profileEntity.toObject.entries
      = u.profileEntity.entries.map fun entry => (Fields.name entry.1, entry.2) :=
        Entity.entries_toObject hprofile
    _ = (u.entity.entries.map fun entry => (Fields.name entry.1, entry.2)).filter
          fun e => e.1 ≠ "repos" := rfl
    _ = (u.entity.toObject.erase "repos").entries := by
        rw [← Entity.entries_toObject huser]
        rfl

/-- A promotion that goes through answers what it leaves of its target. -/
theorem resolvePromoteUser_shown {ctx : Context} {field : FieldExpression} {s s' : Store}
    {id : String} {v : Json} (hid : field.argument? "userId" = some id)
    (h : (RootField.promoteUser.resolve ctx field).Ends s (.ok v) s') :
    v = s'.shown User.entity (some id) field.subSelection := by
  obtain ⟨policy, caller, rfl⟩ := exists_caller_of_resolve rfl h.result_eq
  obtain ⟨target, user, hmay, htarget, huser, rfl⟩ := resolvePromoteUser_eq_ok h.result_eq
  obtain rfl : id = target := Option.some.inj (hid.symm.trans htarget)
  have hends := resolvePromoteUser_promoted policy caller field s hmay htarget huser
  have hfound : s'.user? id
      = some (user.promoted s.repoIds (field.argument? "role")) := by
    rw [← h.after_eq, RootField.resolve, hends.after_eq, Store.user?_updateUser, if_pos rfl, huser]
    rfl
  exact (Store.shown_of_user hfound _ _).symm

/-! ## Known and unknown users -/

/-- The user with an id is shown alike in all the ways in which users are shown. -/
structure ShownAlike (s : Store) (id : String) : Prop where
  /-- a caller is shown to himself as he is to everybody, and in whole as the profile shows him -/
  me_user : ∀ (policy policy' : Policy) (caller caller' : Caller) (field field' : FieldExpression),
    caller.id = id → field'.argument? "id" = some id → field'.subSelection = field.subSelection →
      ∃ v, (RootField.me.resolve ⟨policy, some caller⟩ field).Ends s (.ok v) s ∧
        (RootField.user.resolve ⟨policy', some caller'⟩ field').Ends s (.ok v) s ∧
        (field.subSelection = none → s.profile? id = some v)
  /-- a promotion that goes through shows what everybody is shown behind it -/
  promotion : ∀ (ctx : Context) (field : FieldExpression) (v : Json) (s' : Store),
    field.argument? "userId" = some id →
      (RootField.promoteUser.resolve ctx field).Ends s (.ok v) s' →
      ∀ (policy' : Policy) (caller' : Caller) (field' : FieldExpression),
        field'.argument? "id" = some id → field'.subSelection = field.subSelection →
          (RootField.user.resolve ⟨policy', some caller'⟩ field').Ends s' (.ok v) s'
  /-- a profile update in whole shows the profile behind it, less the repositories -/
  update : ∀ (policy : Policy) (caller : Caller) (field : FieldExpression),
    caller.id = id → field.subSelection = none →
      ∃ (profile : Object) (s' : Store), s'.profile? id = some (.ofObject profile) ∧
        (RootField.updateProfile.resolve ⟨policy, some caller⟩ field).Ends s
          (.ok (.ofObject (profile.erase "repos"))) s'

/-- Who has no record is shown nothing, and changes nothing. -/
def ShownNothing (s : Store) (id : String) : Prop :=
  ∀ (policy : Policy) (caller : Caller) (field : FieldExpression), caller.id = id →
    (RootField.me.resolve ⟨policy, some caller⟩ field).Ends s (.ok .null) s ∧
      (RootField.updateProfile.resolve ⟨policy, some caller⟩ field).Ends s (.ok .null) s

variable {s : Store} {id : String}

theorem ShownAlike.of_user {user : User} (h : s.user? id = some user) : ShownAlike s id where
  me_user policy policy' caller caller' field field' hcaller hid hsub := by
    refine ⟨user.entity.project field.subSelection, ?_, ?_, fun hwhole => ?_⟩
    · have hme := resolveMe_ends field s ⟨policy, some caller⟩
      rwa [Option.map_some, hcaller, Store.shown_of_user h] at hme
    · have huser := resolveUser_ends policy' caller' field' s
      rwa [hid, hsub, Store.shown_of_user h] at huser
    · rw [hwhole, Store.profile?_of_user h, Entity.project_none]
  promotion ctx field v s' hid hends policy' caller' field' hid' hsub := by
    have huser := resolveUser_ends policy' caller' field' s'
    rwa [hid', hsub, ← resolvePromoteUser_shown hid hends] at huser
  update policy caller field hcaller hwhole := by
    have hupdate := resolveUpdateProfile_ends policy caller field s
    rw [hcaller, hwhole] at hupdate
    obtain ⟨user', huser'⟩ := Store.exists_user_of_mailed h field.newEmail?
    refine ⟨user'.entity.toObject, _, Store.profile?_of_user huser', ?_⟩
    rwa [Store.shown_of_user huser', Entity.project_none, User.toObject_profileEntity] at hupdate

theorem ShownNothing.of_unknown (h : s.user? id = none) : ShownNothing s id := by
  intro policy caller field hcaller
  constructor
  · have hme := resolveMe_ends field s ⟨policy, some caller⟩
    rwa [Option.map_some, hcaller, Store.shown_of_unknown h] at hme
  · have hupdate := resolveUpdateProfile_ends policy caller field s
    rwa [hcaller, Store.mailed_of_unknown h, Store.shown_of_unknown h] at hupdate

/-- **Reads agree**, with each other and with the write just made: users are shown alike by all
root fields and by their profiles, and who is not known is shown nothing. -/
theorem reads_agree (s : Store) (id : String) :
    (∀ user, s.user? id = some user → ShownAlike s id) ∧
      (s.user? id = none → ShownNothing s id) :=
  ⟨fun _ h => .of_user h, .of_unknown⟩

/-- A promotion through which an admin takes the role of the only user away, who then asks for the
record and changes the mail address; the user who has no record does the same. -/
theorem promoted_user_is_read :
    let s := Store.ofRecords [⟨"u1", "dev", "pw", "dev@forge", some "developer", ["r1", "r9"]⟩] []
    let ops : Context := ⟨.enforced, some ⟨"u2", some adminRole, []⟩⟩
    let dev : Context := ⟨.enforced, some ⟨"u1", none, []⟩⟩
    let promotion : FieldExpression :=
      ⟨"promoteUser", .ofList [("userId", "u1")], some " role, repos \x7b id \x7d ".toList⟩
    let question : FieldExpression :=
      ⟨"user", .ofList [("id", "u1")], some " role, repos \x7b id \x7d ".toList⟩
    let update : FieldExpression := ⟨"updateProfile", .ofList [("email", "new@forge")], none⟩
    let s' := (RootField.promoteUser.resolve ops promotion).after s
    let shown := Json.object [("role", .null), ("repos", .stringArray ["r1", "r9"])]
    FieldExpression.parse? "promoteUser(userId: \"u1\") \x7b role, repos \x7b id \x7d \x7d".toList
        = some promotion ∧
      (RootField.promoteUser.resolve ops promotion).result s = .ok shown ∧
      (RootField.user.resolve dev question).result s' = .ok shown ∧
      (RootField.updateProfile.resolve ops update).Ends s (.ok .null) s ∧
      ∃ (profile : Object) (s'' : Store), s''.profile? "u1" = some (.ofObject profile) ∧
        (RootField.updateProfile.resolve dev update).Ends s'
          (.ok (.ofObject (profile.erase "repos"))) s'' := by
  intro s ops dev promotion question update s' shown
  have hknown := (reads_agree s "u1").1 _ rfl
  have hknown' := (reads_agree s' "u1").1 _ rfl
  have hunknown := (reads_agree s "u2").2 rfl
  have hpromotion : (RootField.promoteUser.resolve ops promotion).Ends s (.ok shown) s' :=
    resolve_ends promotion s .promoteUser ops
  refine ⟨by decide +kernel, rfl, ?_, (hunknown .enforced _ update rfl).2,
    hknown'.update .enforced _ update rfl rfl⟩
  exact (hknown.promotion ops promotion shown s' rfl hpromotion .enforced _ question rfl rfl).result_eq

end ForgeQuery
