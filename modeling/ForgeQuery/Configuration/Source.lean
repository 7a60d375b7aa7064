import ForgeQuery.Configuration.Basic

/-!
# Reading records from data trees

Configurations and seeds are read from data trees of more than one format. A `Source` says how the
trees of a format give up their texts, numbers, lists and fields; the records are then read in one
way from every source:

* a record is a tree of named fields, none of them unknown and none repeated, or a list of the
  fields in their order, of which some may be missing at the end;
* a missing field takes its default, and without a default it is a refusal.
-/

namespace ForgeQuery

/-- How data trees of type `ν` are taken apart; whatever has another shape is refused. -/
structure Source (ν : Type) where
  /-- a text -/
  text : ν → Option String
  /-- an integer -/
  integer : ν → Option Int
  /-- a truth value -/
  flag : ν → Option Bool
  /-- whether there is a value, and which -/
  optional : ν → Option (Option ν)
  /-- the items of a list -/
  items : ν → Option (List ν)
  /-- the fields of a record: by name, or in order -/
  fields : ν → Option (List (String × ν) ⊕ List ν)
  /-- the name of one of a set of alternatives without content -/
  choice : ν → Option String

namespace Source

variable {ν : Type} (S : Source ν)

/-! ## Fields -/

/-- The fields of a record under their names. -/
def record (names : List String) (v : ν) : Option (List (String × ν)) := do
  match ← S.fields v with
  | .inl members =>
    let given := members.map Prod.fst
    if given.all names.contains && decide given.Nodup then some members else none
  | .inr items => if items.length ≤ names.length then some (names.zip items) else none

/-- A field that has to be there. -/
def required {α : Type} (fields : List (String × ν)) (name : String) (read : ν → Option α) :
    Option α := (Ordered.find? name fields).bind read

/-- A field that may be missing. -/
def defaulted {α : Type} (fields : List (String × ν)) (name : String) (fallback : α)
    (read : ν → Option α) : Option α :=
  match Ordered.find? name fields with
  | some v => read v
  | none => some fallback

/-! ## Values of fields -/

/-- A text or nothing. -/
def optionalText (v : ν) : Option (Option String) := do
  match ← S.optional v with
  | some v => (S.text v).map some
  | none => some none

/-- An integer of 64 bits. -/
def word (v : ν) : Option Int64 := do
  let n ← S.integer v
  if Int64.minValue.toInt ≤ n ∧ n ≤ Int64.maxValue.toInt then some (Int64.ofInt n) else none

/-- A list with items of one kind. -/
def list {α : Type} (item : ν → Option α) (v : ν) : Option (List α) := do (← S.items v).mapM item

/-! ## Records -/

/-- A user record. -/
def user (v : ν) : Option User := do
  let fields ← S.record User.recordFields v
  let id ← required fields "id" S.text
  let username ← required fields "username" S.text
  let password ← required fields "password" S.text
  let email ← required fields "email" S.text
  let role ← defaulted fields "role" none S.optionalText
  let repos ← defaulted fields "repos" [] (S.list S.text)
  return { id, username, password, email, role, repos }

/-- A repository record. -/
def repo (v : ν) : Option Repo := do
  let fields ← S.record Repo.recordFields v
  let id ← required fields "id" S.text
  let name ← required fields "name" S.text
  let stars ← defaulted fields "stars" 0 S.word
  let language ← required fields "language" S.text
  let isPrivate ← defaulted fields "is_private" false S.flag
  let flag ← defaulted fields "flag" none S.optionalText
  return { id, name, stars, language, isPrivate, flag }

/-- A seed. Lists that are not given are empty. -/
def seed (v : ν) : Option Seed := do
  let fields ← S.record ["users", "repos"] v
  let users ← defaulted fields "users" [] (S.list S.user)
  let repos ← defaulted fields "repos" [] (S.list S.repo)
  return { users, repos }

/-- A policy by its name. -/
def policy (v : ν) : Option Policy := (S.choice v).bind Policy.ofName?

/-- The section on authorization, which gives the policy. -/
def authorization (v : ν) : Option Policy := do
  let fields ← S.record ["mode"] v
  defaulted fields "mode" .permissive S.policy

/-- A configuration. -/
def configuration (v : ν) : Option Configuration := do
  let fields ← S.record ["authorization", "seed"] v
  let policy ← defaulted fields "authorization" .permissive S.authorization
  let seed ← defaulted fields "seed" Seed.standard S.seed
  return { policy, seed }

end Source

/-! ## JSON as a source -/

/-- JSON values as data trees. -/
def Json.source : Source Json where
  text
    | .string s => some s
    | _ => none
  integer
    | .number (.integer n) => some n
    | _ => none
  flag
    | .bool b => some b
    | _ => none
  optional
    | .null => some none
    | v => some (some v)
  items
    | .array items => some items
    | _ => none
  fields
    | .object members => some (.inl members)
    | .array items => some (.inr items)
    | _ => none
  choice
    | .string s => some s
    | .object [(s, .null)] => some s
    | _ => none

/-- Read a seed that is given as a JSON value. It is not checked for repetitions. -/
def Seed.ofJson? (v : Json) : Option Seed := Json.source.seed v

end ForgeQuery
