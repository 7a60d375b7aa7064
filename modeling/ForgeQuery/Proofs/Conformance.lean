import ForgeQuery.Proofs.Calls
import ForgeQuery.Proofs.Projecting

/-!
# Answers conform to the schema

`Schema.Fits` says that a value has the shape of a type of the schema, and `Schema.FitsField` that
it may stand under a name in an object of a type. Both are read off the list of types that
introspection shows. The schema does not say where `null` may stand; it does in the six places of
`Schema.nullable` and nowhere else.

The schema, the fields that can be selected, the entities of the records and the resolvers are
written down apart from each other. They agree: whatever the document and its sub-selections are,
the data of a request that goes through holds fields of the query or of the mutation type, each with
a value that fits (`data_conforms`).
-/

namespace ForgeQuery

namespace Schema

/-- The names of the fields of a type, each with the type of its values. -/
def TypeDefinition.slots (type : TypeDefinition) : List (String × TypeRef) :=
  type.fields.map fun f => (f.name, f.type)

/-- The type of the data of an operation. -/
def rootType? : OperationKind → Option TypeDefinition
  | .query => some queryType
  | .mutation => some mutationType
  | .introspection => none

/-- The places where `null` may stand, each as the name of a type and the name of a field. -/
def nullable : List (String × String) :=
  [("Query", "me"), ("Query", "user"), ("Query", "repo"), ("Mutation", "updateProfile"),
    ("User", "role"), ("Repo", "flag")]

mutual

/-- The value is there and has the shape of the type. -/
inductive Fits : TypeRef → Json → Prop
  /-- a text -/
  | text (s : String) : Fits (.scalar "String") (.string s)
  /-- an integer -/
  | integer (n : Int) : Fits (.scalar "Int") (.number (.integer n))
  /-- a truth value -/
  | bool (b : Bool) : Fits (.scalar "Boolean") (.bool b)
  /-- an array whose items are there and have the shape of the type -/
  | list {t : TypeRef} {items : List Json} (each : ∀ v ∈ items, Fits t v) :
      Fits (.list t) (.array items)
  /-- an object with fields of the type, at least one, each under its own name and once -/
  | object {type : TypeDefinition} {members : List (String × Json)} (listed : type ∈ types)
      (inhabited : members ≠ []) (distinct : (members.map Prod.fst).Nodup)
      (each : ∀ m ∈ members, FitsField type m.1 m.2) : Fits (.object type.name) (.object members)

/-- The value may stand under the name in an object of the type. -/
inductive FitsField : TypeDefinition → String → Json → Prop
  /-- a value of the field's type -/
  | value {type : TypeDefinition} {name : String} {t : TypeRef} {v : Json}
      (declared : (name, t) ∈ type.slots) (fits : Fits t v) : FitsField type name v
  /-- no value, in one of the places where there may be none -/
  | null {type : TypeDefinition} {name : String} {t : TypeRef} (declared : (name, t) ∈ type.slots)
      (absent : (type.name, name) ∈ nullable) : FitsField type name .null

end

/-- A text that may be missing. -/
theorem FitsField.optionalText {type : TypeDefinition} {name : String}
    (declared : (name, text) ∈ type.slots) (absent : (type.name, name) ∈ nullable)
    (s : Option String) : FitsField type name (.optionalString s) := by
  cases s with
  | none => exact .null declared absent
  | some s => exact .value declared (.text s)

theorem fits_stringArray (items : List String) : Fits (.list text) (.stringArray items) := by
  refine .list fun v hv => ?_
  obtain ⟨s, -, rfl⟩ := List.mem_map.mp hv
  exact .text s

end Schema

/-! ## Entities -/

/-- Whatever a sub-selection says, it leaves something of an entity and adds nothing to it. -/
theorem Entity.exists_project {φ : Type} [DecidableEq φ] [Fields φ] {e : Entity φ}
    (h : e.entries ≠ []) (sub : Option Text) :
    ∃ o : Object, e.project sub = .ofObject o ∧ o.entries ≠ [] ∧
      ∀ m ∈ o.entries, ∃ f, (f, m.2) ∈ e.entries ∧ m.1 = Fields.name f := by
  have hwhole : e.toObject.entries ≠ [] ∧
      ∀ m ∈ e.toObject.entries, ∃ f, (f, m.2) ∈ e.entries ∧ m.1 = Fields.name f :=
    ⟨mt eq_nil_of_toObject h, fun _ hm => (givesLast_of_mem_toObject hm).exists_entry⟩
  cases sub with
  | none => exact ⟨e.toObject, rfl, hwhole⟩
  | some sub =>
    by_cases hempty : (e.selected sub).isEmpty = true
    · exact ⟨e.toObject, if_pos hempty, hwhole⟩
    · refine ⟨e.selected sub, if_neg hempty, fun hnil => hempty ?_,
        fun _ hm => (givesFirst_of_mem_selected hm).exists_entry⟩
      rw [Ordered.isEmpty, hnil]
      rfl

namespace Schema

/-- The answer of an entity fits a type if every value of the entity does. -/
theorem fits_project {φ : Type} [DecidableEq φ] [Fields φ] {type : TypeDefinition}
    (listed : type ∈ types) {e : Entity φ} (hne : e.entries ≠ [])
    (h : ∀ f v, (f, v) ∈ e.entries → FitsField type (Fields.name f) v) (sub : Option Text) :
    Fits (.object type.name) (e.project sub) := by
  obtain ⟨o, hproject, hinhabited, hmembers⟩ := e.exists_project hne sub
  rw [hproject]
  refine .object listed hinhabited o.distinct fun m hm => ?_
  obtain ⟨f, hf, hname⟩ := hmembers m hm
  rw [hname]
  exact h f m.2 hf

theorem fitsField_profileEntity (u : User) :
    ∀ f v, (f, v) ∈ u.profileEntity.entries → FitsField userType (Fields.name f) v := by
  intro f v h
  rw [User.profileEntity] at h
  simp only [List.mem_cons, Prod.mk.injEq, List.not_mem_nil, or_false] at h
  rcases h with ⟨rfl, rfl⟩ | ⟨rfl, rfl⟩ | ⟨rfl, rfl⟩ | ⟨rfl, rfl⟩
  · exact .value (by decide) (.text u.id)
  · exact .value (by decide) (.text u.username)
  · exact .value (by decide) (.text u.email)
  · exact .optionalText (by decide) (by decide) u.role

theorem fitsField_userEntity (u : User) :
    ∀ f v, (f, v) ∈ u.entity.entries → FitsField userType (Fields.name f) v := by
  intro f v h
  rcases List.mem_append.mp h with h | h
  · exact fitsField_profileEntity u f v h
  · obtain ⟨rfl, rfl⟩ := Prod.mk.inj (List.mem_singleton.mp h)
    exact .value (by decide) (fits_stringArray u.repos)

theorem fitsField_repoEntity (r : Repo) :
    ∀ f v, (f, v) ∈ r.entity.entries → FitsField repoType (Fields.name f) v := by
  intro f v h
  rw [Repo.entity] at h
  simp only [List.mem_cons, Prod.mk.injEq, List.not_mem_nil, or_false] at h
  rcases h with ⟨rfl, rfl⟩ | ⟨rfl, rfl⟩ | ⟨rfl, rfl⟩ | ⟨rfl, rfl⟩ | ⟨rfl, rfl⟩ | ⟨rfl, rfl⟩
  · exact .value (by decide) (.text r.id)
  · exact .value (by decide) (.text r.name)
  · exact .value (by decide) (.integer r.stars.toInt)
  · exact .value (by decide) (.text r.language)
  · exact .value (by decide) (.bool r.isPrivate)
  · exact .optionalText (by decide) (by decide) r.flag

theorem fits_profile (u : User) (sub : Option Text) :
    Fits (.object "User") (u.profileEntity.project sub) :=
  fits_project (by decide : userType ∈ types) (List.cons_ne_nil _ _) (fitsField_profileEntity u) sub

theorem fits_user (u : User) (sub : Option Text) :
    Fits (.object "User") (u.entity.project sub) :=
  fits_project (by decide : userType ∈ types) (List.cons_ne_nil _ _) (fitsField_userEntity u) sub

theorem fits_repo (r : Repo) (sub : Option Text) :
    Fits (.object "Repo") (r.entity.project sub) :=
  fits_project (by decide : repoType ∈ types) (List.cons_ne_nil _ _) (fitsField_repoEntity r) sub

/-! ## Root fields -/

/-- Where `null` may stand, what is shown of a user may stand too. -/
theorem fitsField_shown {type : TypeDefinition} {name : String}
    (declared : (name, TypeRef.object "User") ∈ type.slots)
    (absent : (type.name, name) ∈ nullable) {view : User → Entity UserField} {sub : Option Text}
    (hview : ∀ u, Fits (.object "User") ((view u).project sub)) (s : Store) (id : Option String) :
    FitsField type name (s.shown view id sub) := by
  unfold Store.shown
  cases id.bind s.user? with
  | none => exact .null declared absent
  | some u => exact .value declared (hview u)

theorem fitsField_shownRepo (s : Store) (readable : String → Bool) (id : Option String)
    (sub : Option Text) : FitsField queryType "repo" (s.shownRepo readable id sub) := by
  unfold Store.shownRepo
  cases id.bind s.repo? with
  | none => exact .null (t := .object "Repo") (by decide) (by decide)
  | some r =>
    by_cases h : readable r.id = true
    · simp only [if_pos h]
      exact .value (by decide) (fits_repo r sub)
    · simp only [if_neg h]
      exact .null (t := .object "Repo") (by decide) (by decide)

/-- **The value of a root field may stand under its name**, whoever asks. -/
theorem fitsField_resolve {root : RootField} {ctx : Context} {field : FieldExpression} {s : Store}
    {v : Json} (h : (root.resolve ctx field).result s = .ok v) {type : TypeDefinition}
    (htype : rootType? root.kind = some type) : FitsField type root.name v := by
  cases shows_of_resolve h with
  | me s id sub =>
    obtain rfl := Option.some.inj htype
    exact fitsField_shown (by decide) (by decide) (fun u => fits_user u _) s _
  | user s id sub =>
    obtain rfl := Option.some.inj htype
    exact fitsField_shown (by decide) (by decide) (fun u => fits_user u _) s _
  | repos rs sub =>
    obtain rfl := Option.some.inj htype
    refine .value (t := .list (.object "Repo")) (by decide) (.list fun v hv => ?_)
    obtain ⟨r, -, rfl⟩ := List.mem_map.mp hv
    exact fits_repo r _
  | repo s readable id sub =>
    obtain rfl := Option.some.inj htype
    exact fitsField_shownRepo s _ _ _
  | updateProfile s id sub =>
    obtain rfl := Option.some.inj htype
    exact fitsField_shown (by decide) (by decide) (fun u => fits_profile u _) s _
  | promoteUser u sub =>
    obtain rfl := Option.some.inj htype
    exact .value (by decide) (fits_user _ _)

end Schema

/-- A profile update shows no repositories. -/
theorem not_mem_updateProfile {ctx : Context} {field : FieldExpression} {s : Store}
    {members : List (String × Json)}
    (h : (RootField.updateProfile.resolve ctx field).result s = .ok (.object members)) :
    "repos" ∉ members.map Prod.fst := by
  obtain ⟨policy, caller, rfl⟩ := exists_caller_of_resolve rfl h
  obtain ⟨u, hu⟩ := Store.exists_user_of_shown
    ((resolveUpdateProfile_ends policy caller field s).eq_of_result h).symm
  obtain ⟨o, hproject, -, hmembers⟩ :=
    u.profileEntity.exists_project (List.cons_ne_nil _ _) field.subSelection
  obtain rfl := Json.object.inj (hproject.symm.trans hu)
  intro hmem
  obtain ⟨m, hm, hname⟩ := List.mem_map.mp hmem
  obtain ⟨f, hf, hfield⟩ := hmembers m hm
  rw [hname] at hfield
  -- the only field of that name is the one that a profile update leaves out
  cases f with
  | repos => simp [User.profileEntity] at hf
  | id | username | email | role => exact absurd hfield (by decide)

/-! ## Data -/

/-- **Every answer conforms to the schema.** The data of a query or of a mutation that goes through
holds fields of the query or of the mutation type, each once and with a value of its type, `null`
where it may stand and nowhere else; and a profile update shows no repositories. -/
theorem data_conforms {request : Request} {doc : Document} {type : Schema.TypeDefinition}
    (hdoc : request.document = .ok doc) (htype : Schema.rootType? doc.kind = some type)
    {policy : Policy} {s : Store} {caller : Option Caller} {data : Object}
    (hdata : (tryExecute policy s request caller).result = .ok data) :
    data.keys.Nodup ∧ (∀ m ∈ data.entries, Schema.FitsField type m.1 m.2) ∧
      ∀ members, (RootField.updateProfile.name, .object members) ∈ data.entries →
        "repos" ∉ members.map Prod.fst := by
  have hkind : doc.kind ≠ .introspection := by
    intro hk
    rw [hk] at htype
    cases htype
  rw [(tryExecute_operation hdoc hkind policy s caller).1] at hdata
  obtain ⟨values, hvalues, rfl⟩ := map_eq_ok_iff.mp hdata
  -- every entry of the data is the value of a call
  have hcall (m : String × Json) (hm : m ∈ (Ordered.ofList values).entries) :=
    exists_call_of_mem_values hvalues (Ordered.mem_ofList hm)
  refine ⟨Ordered.distinct _, fun m hm => ?_, fun members hm => ?_⟩
  · obtain ⟨c, hc, s', hname, hresult⟩ := hcall m hm
    rw [hname]
    refine Schema.fitsField_resolve hresult ?_
    rw [Document.kind_of_mem_calls hc, htype]
  · obtain ⟨c, hc, s', hname, hresult⟩ := hcall _ hm
    have hroot : RootField.updateProfile = c.root := RootField.eq_of_name_eq hname
    rw [Call.resolve, ← hroot] at hresult
    exact not_mem_updateProfile hresult

/-- A profile update is asked for the repositories and for the password, behind a promotion that
takes the role away: both fields are there, and what they hold conforms. -/
theorem profile_is_asked_for_repositories :
    let s := Store.ofRecords [⟨"u1", "dev", "pw", "dev@forge", none, ["r1"]⟩] []
    let dev : Option Caller := some ⟨"u1", none, ["r1"]⟩
    let request := Request.ofQuery ("mutation \x7b promoteUser(userId: \"u1\") \x7b role \x7d, "
      ++ "updateProfile \x7b repos, password \x7d \x7d")
    ∃ data, (tryExecute .permissive s request dev).result = .ok data ∧
      data.keys = ["promoteUser", "updateProfile"] ∧
      (∀ m ∈ data.entries, Schema.FitsField Schema.mutationType m.1 m.2) ∧
      ∀ members, ("updateProfile", .object members) ∈ data.entries →
        "repos" ∉ members.map Prod.fst := by
  intro s dev request
  have hkind : request.document.toOption.map Document.kind = some .mutation := by decide +kernel
  have hkeys : (tryExecute .permissive s request dev).result.toOption.map Ordered.keys
      = some ["promoteUser", "updateProfile"] := by
    decide +kernel
  cases hdoc : request.document with
  | error e =>
    rw [hdoc] at hkind
    cases hkind
  | ok doc =>
    cases hdata : (tryExecute .permissive s request dev).result with
    | error e =>
      rw [hdata] at hkeys
      cases hkeys
    | ok data =>
      rw [hdata] at hkeys
      rw [hdoc] at hkind
      have htype : Schema.rootType? doc.kind = some Schema.mutationType :=
        congrArg Schema.rootType? (Option.some.inj hkind)
      have hconforms := data_conforms hdoc htype hdata
      exact ⟨data, rfl, Option.some.inj hkeys, hconforms.2⟩

end ForgeQuery
