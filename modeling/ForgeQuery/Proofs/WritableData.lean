import ForgeQuery.Proofs.Conformance
import ForgeQuery.Proofs.Failure
import ForgeQuery.Proofs.WrittenJson

/-!
# Data that survives being written

A value survives being written when a reader keeps it and its numbers are integers. Containers add
one level to the depth that this takes, and nothing else in the data of a request does: a record is
an object of texts and lists of texts, a root field shows a record or a list of records, and
introspection shows types that are wrapped once at most. So the data of a request, whatever the
store holds, is far from the limit that a reader of responses has (`survives_of_tryExecute`).
-/

namespace ForgeQuery

namespace Json

/-- The value survives being written for a reader that allows so many containers around each
other. -/
structure Survives (depth : Nat) (v : Json) : Prop where
  /-- the reader keeps the value -/
  isKept : IsKept depth v
  /-- every number is an integer -/
  isIntegral : v.IsIntegral

theorem IsKept.mono {depth depth' : Nat} {v : Json} (h : IsKept depth v) (hd : depth ≤ depth') :
    IsKept depth' v := by
  induction h generalizing depth' with
  | null => exact .null
  | bool b => exact .bool b
  | integer hn => exact .integer hn
  | float x => exact .float x
  | string t => exact .string t
  | array _ ih =>
    obtain ⟨n, rfl⟩ := Nat.exists_eq_add_one.mpr (Nat.zero_lt_of_lt hd)
    exact .array fun v hv => ih v hv (Nat.le_of_succ_le_succ hd)
  | object hnames _ ih =>
    obtain ⟨n, rfl⟩ := Nat.exists_eq_add_one.mpr (Nat.zero_lt_of_lt hd)
    exact .object hnames fun m hm => ih m hm (Nat.le_of_succ_le_succ hd)

namespace Survives

variable {depth : Nat}

theorem mono {depth' : Nat} {v : Json} (h : Survives depth v) (hd : depth ≤ depth') :
    Survives depth' v :=
  ⟨h.isKept.mono hd, h.isIntegral⟩

theorem null : Survives depth .null := ⟨.null, by simp [IsIntegral, numbers]⟩

theorem bool (b : Bool) : Survives depth (.bool b) := ⟨.bool b, by simp [IsIntegral, numbers]⟩

theorem string (t : String) : Survives depth (.string t) :=
  ⟨.string t, by simp [IsIntegral, numbers]⟩

theorem integer {n : Int} (hn : isExact n = true) : Survives depth (.integer n) :=
  ⟨.integer hn, by simp [IsIntegral, Json.integer, numbers]⟩

theorem array {items : List Json} (h : ∀ v ∈ items, Survives depth v) :
    Survives (depth + 1) (.array items) :=
  ⟨.array fun v hv => (h v hv).isKept, isIntegral_array_iff.mpr fun v hv => (h v hv).isIntegral⟩

theorem map {α : Type} {items : List α} {f : α → Json} (h : ∀ x ∈ items, Survives depth (f x)) :
    Survives (depth + 1) (.array (items.map f)) := by
  refine array fun v hv => ?_
  obtain ⟨x, hx, rfl⟩ := List.mem_map.mp hv
  exact h x hx

theorem object {members : List (String × Json)} (hnames : (members.map Prod.fst).Nodup)
    (h : ∀ m ∈ members, Survives depth m.2) : Survives (depth + 1) (.object members) :=
  ⟨.object hnames fun m hm => (h m hm).isKept,
    isIntegral_object_iff.mpr fun m hm => (h m hm).isIntegral⟩

theorem ofObject {o : Object} (h : ∀ m ∈ o.entries, Survives depth m.2) :
    Survives (depth + 1) (.ofObject o) :=
  object o.distinct h

theorem ofList {pairs : List (String × Json)} (h : ∀ m ∈ pairs, Survives depth m.2) :
    Survives (depth + 1) (.ofObject (Ordered.ofList pairs)) :=
  ofObject fun m hm => h m (Ordered.mem_ofList hm)

theorem optionalString (t : Option String) : Survives depth (.optionalString t) := by
  cases t with
  | none => exact null
  | some t => exact string t

theorem stringArray (items : List String) : Survives (depth + 1) (.stringArray items) :=
  map fun t _ => string t

end Survives

/-- The integers of 64 bits are exact. -/
theorem isExact_toInt (n : Int64) : isExact n.toInt = true := by
  have hlow := n.minValue_le_toInt
  have hhigh := n.toInt_lt
  simp only [isExact, Bool.and_eq_true, decide_eq_true_eq]
  refine ⟨hlow, Int.lt_trans hhigh ?_⟩
  decide

end Json

open Json (Survives)

/-! ## Records -/

/-- What is left of an entity takes one level more than its values. -/
theorem Entity.survives_project {φ : Type} [DecidableEq φ] [Fields φ] {e : Entity φ} {depth : Nat}
    (hne : e.entries ≠ []) (h : ∀ entry ∈ e.entries, Survives depth entry.2)
    (sub : Option Text) : Survives (depth + 1) (e.project sub) := by
  obtain ⟨o, hproject, -, hmembers⟩ := e.exists_project hne sub
  rw [hproject]
  refine .ofObject fun m hm => ?_
  obtain ⟨f, hf, -⟩ := hmembers m hm
  exact h _ hf

theorem User.survives_profileEntity (u : User) :
    ∀ entry ∈ u.profileEntity.entries, Survives 1 entry.2 := by
  simpa [profileEntity] using
    ⟨.string u.id, .string u.username, .string u.email, .optionalString u.role⟩

theorem User.survives_profile (u : User) (sub : Option Text) :
    Survives 2 (u.profileEntity.project sub) :=
  u.profileEntity.survives_project (List.cons_ne_nil _ _) u.survives_profileEntity sub

theorem User.survives_project (u : User) (sub : Option Text) :
    Survives 2 (u.entity.project sub) := by
  refine u.entity.survives_project (List.cons_ne_nil _ _) (fun entry hentry => ?_) sub
  rcases List.mem_append.mp hentry with hentry | hentry
  · exact u.survives_profileEntity entry hentry
  · rw [List.mem_singleton.mp hentry]
    exact .stringArray u.repos

theorem Repo.survives_project (r : Repo) (sub : Option Text) :
    Survives 1 (r.entity.project sub) := by
  refine r.entity.survives_project (List.cons_ne_nil _ _) ?_ sub
  simpa [entity] using
    ⟨.string r.id, .string r.name, .integer (Json.isExact_toInt r.stars), .string r.language,
      .bool r.isPrivate, .optionalString r.flag⟩

/-! ## Root fields -/

theorem Store.survives_shown {view : User → Entity UserField} {sub : Option Text} {depth : Nat}
    (hview : ∀ u, Survives depth ((view u).project sub)) (s : Store) (id : Option String) :
    Survives depth (s.shown view id sub) := by
  unfold Store.shown
  cases id.bind s.user? with
  | none => exact .null
  | some u => exact hview u

theorem Store.survives_shownRepo (s : Store) (readable : String → Bool) (id : Option String)
    (sub : Option Text) : Survives 1 (s.shownRepo readable id sub) := by
  unfold Store.shownRepo
  cases id.bind s.repo? with
  | none => exact .null
  | some r =>
    by_cases h : readable r.id = true
    · simp only [if_pos h]
      exact r.survives_project sub
    · simp only [if_neg h]
      exact .null

/-- The value of a root field has at most two containers around each other. -/
theorem RootField.Shows.survives {root : RootField} {v : Json} (h : root.Shows v) :
    Survives 2 v := by
  cases h with
  | me s id sub | user s id sub =>
    exact s.survives_shown (fun u => u.survives_project sub) id
  | repos rs sub => exact .map fun r _ => r.survives_project sub
  | repo s readable id sub => exact (s.survives_shownRepo readable id sub).mono (by decide)
  | updateProfile s id sub =>
    exact s.survives_shown (fun u => u.survives_profile sub) id
  | promoteUser u sub => exact u.survives_project sub

/-! ## The schema -/

namespace Schema

/-- The wrappers around the name in a type reference. -/
def TypeRef.wrappers : TypeRef → Nat
  | scalar _ | object _ => 0
  | list t | nonNull t => t.wrappers + 1

/-- A type reference takes a level for its name and one for each wrapper. -/
theorem TypeRef.survives_toJson (t : TypeRef) : Survives (t.wrappers + 1) t.toJson := by
  induction t with
  | scalar name | object name =>
    refine .object (by decide : ["kind", "name"].Nodup) ?_
    simpa using ⟨.string _, .string name⟩
  | list t ih | nonNull t ih =>
    refine .object (by decide : ["kind", "ofType"].Nodup) ?_
    simpa using ⟨.string _, ih⟩

/-- A field whose types are wrapped so often at most. -/
def Field.WrappedIn (n : Nat) (f : Field) : Prop :=
  f.type.wrappers ≤ n ∧ ∀ a ∈ f.args, a.type.wrappers ≤ n

instance (n : Nat) (f : Field) : Decidable (f.WrappedIn n) :=
  inferInstanceAs (Decidable (_ ∧ _))

theorem InputValue.survives_toJson {n : Nat} {a : InputValue} (h : a.type.wrappers ≤ n) :
    Survives (n + 2) a.toJson := by
  refine .object (by decide : ["name", "type"].Nodup) ?_
  simpa using ⟨.string a.name, a.type.survives_toJson.mono (Nat.succ_le_succ h)⟩

theorem Field.survives_toJson {n : Nat} {f : Field} (h : f.WrappedIn n) :
    Survives (n + 4) f.toJson := by
  obtain ⟨htype, hargs⟩ := h
  have harray : Survives (n + 3) (.array (f.args.map InputValue.toJson)) :=
    .map fun a ha => InputValue.survives_toJson (hargs a ha)
  have hreference : Survives (n + 3) f.type.toJson := f.type.survives_toJson.mono (by omega)
  rw [toJson]
  cases f.description with
  | none =>
    refine .object (by decide : ["name", "args", "type"].Nodup) ?_
    simpa using ⟨.string f.name, harray, hreference⟩
  | some d =>
    refine .object (by decide : ["name", "args", "type", "description"].Nodup) ?_
    simpa using ⟨.string f.name, harray, hreference, .string d⟩

theorem TypeDefinition.survives_toJson {n : Nat} {t : TypeDefinition}
    (h : ∀ f ∈ t.fields, f.WrappedIn n) : Survives (n + 6) t.toJson := by
  cases t with
  | scalar name =>
    refine .object (by decide : ["kind", "name"].Nodup) ?_
    simpa using ⟨.string _, .string name⟩
  | object name fields =>
    have harray : Survives (n + 5) (.array (fields.map Field.toJson)) :=
      .map fun f hf => Field.survives_toJson (h f hf)
    refine .object (by decide : ["kind", "name", "fields"].Nodup) ?_
    simpa using ⟨.string _, .string name, harray⟩

theorem TypeDefinition.survives_reference {depth : Nat} (t : TypeDefinition) :
    Survives (depth + 1) t.reference :=
  .object (by decide : ["name"].Nodup) (by simpa using .string t.name)

/-- No type of the schema is wrapped twice. -/
theorem wrappedIn_types : ∀ t ∈ types, ∀ f ∈ t.fields, f.WrappedIn 1 := by
  decide

theorem survives_introspection : Survives 10 (.ofObject introspection) := by
  have htypes : Survives 8 (.array (types.map TypeDefinition.toJson)) :=
    .map fun t ht => TypeDefinition.survives_toJson (wrappedIn_types t ht)
  refine .ofList (List.forall_mem_singleton.mpr ?_)
  refine .object (by decide : ["queryType", "mutationType", "types"].Nodup) ?_
  simpa using ⟨queryType.survives_reference, mutationType.survives_reference, htypes⟩

end Schema

/-! ## Data -/

/-- **The data of every request survives being written**, at the depth of data in a response. -/
theorem survives_of_tryExecute {policy : Policy} {s : Store} {request : Request}
    {caller : Option Caller} {data : Object}
    (h : (tryExecute policy s request caller).result = .ok data) :
    Survives (Json.nestingLimit - 1) (.ofObject data) := by
  cases hdoc : request.document with
  | error e =>
    rw [tryExecute_result, Request.outcome, hdoc] at h
    cases h
  | ok doc =>
    by_cases hkind : doc.kind = .introspection
    · rw [tryExecute_introspection hdoc hkind] at h
      obtain rfl := Except.ok.inj h
      exact Schema.survives_introspection.mono (by decide)
    · rw [(tryExecute_operation hdoc hkind policy s caller).1] at h
      obtain ⟨values, hvalues, rfl⟩ := map_eq_ok_iff.mp h
      refine (Survives.ofList fun m hm => ?_ : Survives 3 _).mono (by decide)
      obtain ⟨c, -, s', -, hresult⟩ := exists_call_of_mem_values hvalues hm
      exact (shows_of_resolve hresult).survives

end ForgeQuery
