import ForgeQuery.Text.Numeral
import ForgeQuery.Yaml.Node

/-!
# The values of YAML nodes

Whoever reads a node says what is wanted of it, and the node is a refusal unless it is that. Any
scalar is a text, whatever its style and tag. An integer, a truth value or nothing is written as a
plain scalar without a tag, or under the tag that says so. `Document.follow` gives the node that a
reference stands for.
-/

namespace ForgeQuery

namespace Yaml

/-! ## Integers -/

/-- The number that a row of digits stands for; it may not be empty. -/
def natural? (base : Nat) (digits : Text) : Option Nat := do
  guard !digits.isEmpty
  digits.foldlM (fun n c => do
    let d ← Text.hexValue? c
    guard (decide (d < base))
    return base * n + d) 0

/-- A number without a sign: the base is shown by its first two characters, and a decimal one does
not start with a zero that could be left out. -/
def magnitude? (based : Nat → Text → Option Nat) : Text → Option Nat
  | '0' :: 'x' :: digits => based 16 digits
  | '0' :: 'o' :: digits => based 8 digits
  | '0' :: 'b' :: digits => based 2 digits
  | '0' :: _ :: _ => none
  | digits => natural? 10 digits

/-- The digits behind the mark of a base, with a plus in front of them or not. -/
def unmarked? (base : Nat) : Text → Option Nat
  | '+' :: digits => natural? base digits
  | digits => natural? base digits

/-- A number that may have a sign. Behind a minus there is no second sign. -/
def signed? : Text → Option Int
  | '+' :: t => (magnitude? unmarked? t).map fun n => (n : Int)
  | '-' :: t => (magnitude? natural? t).map fun n => -(n : Int)
  | t => (magnitude? unmarked? t).map fun n => (n : Int)

/-- A decimal number that may have a sign, and as many zeros in front as it likes. -/
def decimal? : Text → Option Int
  | '+' :: t => (natural? 10 t).map fun n => (n : Int)
  | '-' :: t => (natural? 10 t).map fun n => -(n : Int)
  | t => (natural? 10 t).map fun n => (n : Int)

/-! ## Scalars -/

/-- The handle of the tags that name the kind of a scalar. -/
def kindHandle : String := "!!"

/-- Whether a text spells that there is no value. -/
def spellsNothing (text : String) : Bool := text == "~" || text == "null"

/-- The truth value that a text spells. -/
def truth? (text : String) : Option Bool :=
  if text == "true" then some true else if text == "false" then some false else none

namespace Node

/-- The text of a scalar. -/
def text? : Node → Option String
  | scalar _ _ text => some text
  | _ => none

/-- The integer that a scalar stands for. Under the tag for integers it is decimal. -/
def integer? : Node → Option Int
  | scalar plain tag text =>
    match tag with
    | some tag =>
      if tag = ⟨kindHandle, "int"⟩ then decimal? text.toList else none
    | none => if plain then signed? text.toList else none
  | _ => none

/-- The truth value that a scalar stands for. -/
def flag? : Node → Option Bool
  | scalar plain tag text =>
    match tag with
    | some tag => if tag = ⟨kindHandle, "bool"⟩ then truth? text else none
    | none => if plain then truth? text else none
  | _ => none

/-- Whether a node stands for no value, where only that is wanted. -/
def isNothing : Node → Bool
  | scalar plain tag text =>
    match tag with
    | some tag => tag = ⟨kindHandle, "null"⟩ && spellsNothing text
    | none => plain && spellsNothing text
  | _ => false

/-- Whether there is a value, where there may be one or none. A plain scalar under the tag for no
value has to spell it. -/
def isPresent? : Node → Option Bool
  | scalar plain tag text =>
    match tag with
    | some tag =>
      if plain && tag = ⟨kindHandle, "null"⟩ then
        if spellsNothing text then some false else none
      else some true
    | none => some !(plain && spellsNothing text)
  | _ => some true

end Node

/-! ## References -/

/-- The node that a node stands for: itself, unless it is a reference. A reference from inside the
node that it names is followed like any other. -/
def Document.follow (d : Document) : Node → Option Node
  | .alias anchor => d.anchors.lookup anchor
  | v => some v

end Yaml

end ForgeQuery
