import ForgeQuery.Json.Printer
import ForgeQuery.Json.Reader
import Mathlib.Data.List.DropRight

/-!
# Layouts of a text

The compact text of a value and the indented one have the same tokens in the same order. What they
differ in is the blanks between the tokens, which is all that a `Layout` says: `Layout.write` is the
text of a value in a layout, and both texts are of this form (`render_eq_write`,
`renderIndented_eq_write`). What is true of the texts of every layout has to be said once.

Blanks in front of a token are passed over by readers (`skipBlanks_append`).
-/

namespace ForgeQuery

namespace Json

/-! ## Blanks -/

/-- The text consists of blanks of the format. -/
def AllBlank (t : Text) : Prop := ∀ c ∈ t, isBlank (.char c) = true

theorem AllBlank.nil : AllBlank [] := List.forall_mem_nil _

/-- Blanks in front of an input are passed over. -/
theorem skipBlanks_append {t : Text} (ht : AllBlank t) (s : Input) :
    skipBlanks (Symbol.ofText t ++ s) = skipBlanks s := by
  refine List.dropWhile_append_of_pos fun x hx => ?_
  obtain ⟨c, hc, rfl⟩ := List.mem_map.mp hx
  exact ht c hc

theorem skipBlanks_skipBlanks (s : Input) : skipBlanks (skipBlanks s) = skipBlanks s :=
  List.dropWhile_idempotent isBlank s

/-! ## Induction on values -/

/-- What holds of a value when it holds of its items or of the values of its members holds of every
value. -/
@[elab_as_elim]
theorem inductionOn {P : Json → Prop} (null : P .null) (bool : ∀ b, P (.bool b))
    (number : ∀ n, P (.number n)) (string : ∀ s, P (.string s))
    (array : ∀ items : List Json, (∀ v ∈ items, P v) → P (.array items))
    (object : ∀ members : List (String × Json), (∀ m ∈ members, P m.2) → P (.object members)) :
    ∀ v, P v
  | .null => null
  | .bool b => bool b
  | .number n => number n
  | .string s => string s
  | .array items => array items fun v _ => inductionOn null bool number string array object v
  | .object members =>
    object members fun m _ => inductionOn null bool number string array object m.2
termination_by v => sizeOf v
decreasing_by
  · have := List.sizeOf_lt_of_mem ‹v ∈ items›
    simp only [Json.array.sizeOf_spec]
    omega
  · have := List.sizeOf_lt_of_mem ‹m ∈ members›
    simp only [Json.object.sizeOf_spec]
    cases m
    simp only [Prod.mk.sizeOf_spec] at this ⊢
    omega

/-! ## Layouts -/

/-- Which blanks stand between the tokens of a text. -/
structure Layout where
  /-- in front of an item, a member or a closing bracket that belongs to a level -/
  gap : Nat → Text
  /-- behind the colon of a member -/
  colon : Text
  /-- nothing but blanks is in a gap -/
  gap_allBlank : ∀ level, AllBlank (gap level)
  /-- nor is it behind a colon -/
  colon_allBlank : AllBlank colon

/-- What stands behind a part: the other parts, each behind a comma and a gap, and the end. -/
def follow (gap finish : Text) : List Text → Text
  | [] => finish
  | part :: parts => ',' :: (gap ++ (part ++ follow gap finish parts))

namespace Layout

/-- No blanks at all. -/
def compact : Layout := ⟨fun _ => [], [], fun _ => .nil, .nil⟩

/-- Every item and every member on a line of its own, two blanks deeper than what it is in. -/
def indented : Layout where
  gap := lineAt
  colon := [' ']
  gap_allBlank level c hc := by
    rcases List.mem_cons.mp hc with rfl | hc
    · rfl
    · rw [List.eq_of_mem_replicate hc]
      rfl
  colon_allBlank c hc := by
    rw [List.mem_singleton.mp hc]
    rfl

variable (L : Layout)

/-- What stands behind an opening bracket of a level: the parts and the bracket that closes it. -/
def enclose (level : Nat) (close : Char) : List Text → Text
  | [] => [close]
  | part :: parts =>
    L.gap (level + 1) ++ (part ++ follow (L.gap (level + 1)) (L.gap level ++ [close]) parts)

mutual

/-- The text of a value that stands on a line of the given level. -/
def write (level : Nat) : Json → Text
  | .array items => '[' :: L.enclose level ']' (writeItems (level + 1) items)
  | .object members => '{' :: L.enclose level '}' (writeMembers (level + 1) members)
  | .null => render .null
  | .bool b => render (.bool b)
  | .number n => render (.number n)
  | .string s => render (.string s)

/-- The texts of items. -/
def writeItems (level : Nat) : List Json → List Text
  | [] => []
  | v :: rest => write level v :: writeItems level rest

/-- The texts of members. -/
def writeMembers (level : Nat) : List (String × Json) → List Text
  | [] => []
  | (name, v) :: rest =>
    (renderString name ++ ':' :: (L.colon ++ write level v)) :: writeMembers level rest

end

/-- The text of a member. -/
def writeMember (level : Nat) (m : String × Json) : Text :=
  renderString m.1 ++ ':' :: (L.colon ++ L.write level m.2)

theorem writeItems_eq_map (level : Nat) (items : List Json) :
    L.writeItems level items = items.map (L.write level) := by
  induction items with
  | nil => rfl
  | cons v rest ih => rw [writeItems, ih, List.map_cons]

theorem writeMembers_eq_map (level : Nat) (members : List (String × Json)) :
    L.writeMembers level members = members.map (L.writeMember level) := by
  induction members with
  | nil => rfl
  | cons m rest ih => rw [writeMembers, ih, List.map_cons, writeMember]

theorem write_array (level : Nat) (items : List Json) : L.write level (.array items)
    = '[' :: L.enclose level ']' (items.map (L.write (level + 1))) := by
  rw [write, writeItems_eq_map]

theorem write_object (level : Nat) (members : List (String × Json)) :
    L.write level (.object members)
      = '{' :: L.enclose level '}' (members.map (L.writeMember (level + 1))) := by
  rw [write, writeMembers_eq_map]

end Layout

/-! ## The two texts -/

theorem renderItems_cons (v : Json) (rest : List Json) :
    renderItems (v :: rest) = v.render ++ follow [] [']'] (rest.map render) := by
  induction rest generalizing v with
  | nil => rw [renderItems, List.map_nil, follow]
  | cons w rest ih =>
    rw [renderItems, ih, List.map_cons, follow, List.nil_append]
    exact fun h => absurd h (List.cons_ne_nil w rest)

theorem renderMembers_cons (m : String × Json) (rest : List (String × Json)) :
    renderMembers (m :: rest) = renderString m.1 ++ ':' :: m.2.render
      ++ follow [] ['}'] (rest.map fun m => renderString m.1 ++ ':' :: m.2.render) := by
  induction rest generalizing m with
  | nil => rw [renderMembers, List.map_nil, follow]
  | cons m' rest ih =>
    rw [renderMembers, ih, List.map_cons, follow, List.nil_append]
    exact fun h => absurd h (List.cons_ne_nil m' rest)

theorem indentItems_cons (level : Nat) (finish : Text) (v : Json) (rest : List Json) :
    indentItems level (v :: rest) ++ finish = lineAt level
      ++ (v.renderIndented level
        ++ follow (lineAt level) finish (rest.map (renderIndented level))) := by
  induction rest generalizing v with
  | nil => rw [indentItems, List.map_nil, follow, List.append_assoc]
  | cons w rest ih =>
    rw [indentItems, List.append_assoc, List.cons_append, ih, List.map_cons, follow,
      List.append_assoc]
    exact fun h => absurd h (List.cons_ne_nil w rest)

theorem indentMembers_cons (level : Nat) (finish : Text) (m : String × Json)
    (rest : List (String × Json)) :
    indentMembers level (m :: rest) ++ finish = lineAt level
      ++ (renderString m.1 ++ ':' :: ' ' :: m.2.renderIndented level
        ++ follow (lineAt level) finish
          (rest.map fun m => renderString m.1 ++ ':' :: ' ' :: m.2.renderIndented level)) := by
  induction rest generalizing m with
  | nil => simp [indentMembers, follow]
  | cons m' rest ih =>
    rw [indentMembers, List.append_assoc, List.cons_append, ih, List.map_cons, follow]
    · simp
    · exact fun h => absurd h (List.cons_ne_nil m' rest)

/-- **The compact text** is the text without blanks. -/
theorem render_eq_write (level : Nat) (v : Json) : v.render = Layout.compact.write level v := by
  induction v using inductionOn generalizing level with
  | null | bool _ | number _ | string _ => rfl
  | array items ih =>
    have hitems : items.map render = items.map (Layout.compact.write (level + 1)) :=
      List.map_congr_left fun v hv => ih v hv _
    rw [render, Layout.write_array, ← hitems]
    cases items with
    | nil => rfl
    | cons v rest => rw [renderItems_cons]; rfl
  | object members ih =>
    have hmembers : members.map (fun m => renderString m.1 ++ ':' :: m.2.render)
        = members.map (Layout.compact.writeMember (level + 1)) :=
      List.map_congr_left fun m hm => by rw [ih m hm (level + 1)]; rfl
    rw [render, Layout.write_object, ← hmembers]
    cases members with
    | nil => rfl
    | cons m rest => rw [renderMembers_cons]; rfl

/-- **The indented text** has an item or member on each line. -/
theorem renderIndented_eq_write (level : Nat) (v : Json) :
    v.renderIndented level = Layout.indented.write level v := by
  induction v using inductionOn generalizing level with
  | null | bool _ => rfl
  | number _ => rw [renderIndented, Layout.write, render]
  | string _ => rw [renderIndented, Layout.write, render]
  | array items ih =>
    have hitems : items.map (renderIndented (level + 1))
        = items.map (Layout.indented.write (level + 1)) :=
      List.map_congr_left fun v hv => ih v hv _
    rw [Layout.write_array, ← hitems]
    cases items with
    | nil => rfl
    | cons v rest =>
      rw [renderIndented, List.append_assoc, List.cons_append, indentItems_cons]
      rfl
  | object members ih =>
    have hmembers : members.map
          (fun m => renderString m.1 ++ ':' :: ' ' :: m.2.renderIndented (level + 1))
        = members.map (Layout.indented.writeMember (level + 1)) :=
      List.map_congr_left fun m hm => by rw [ih m hm (level + 1)]; rfl
    rw [Layout.write_object, ← hmembers]
    cases members with
    | nil => rfl
    | cons m rest =>
      rw [renderIndented, List.append_assoc, List.cons_append, indentMembers_cons]
      rfl

end Json

end ForgeQuery
