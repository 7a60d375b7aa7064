import ForgeQuery.Decimal.Binary64
import ForgeQuery.Ordered

/-!
# JSON values

Values of the exchange format. An object is a list of members in the order in which they are
written; a reader builds it from an `Object`, in which each name occurs once.

Numbers keep apart what the format's texts keep apart: an integer is held exactly, anything with a
fraction or an exponent is the nearest floating point number.
-/

namespace ForgeQuery

/-- A number of the exchange format. -/
inductive Number where
  /-- an integer, held exactly -/
  | integer (n : Int)
  /-- a floating point number -/
  | float (x : Binary64)
  deriving DecidableEq

/-- A value of the exchange format. -/
inductive Json where
  /-- the value `null` -/
  | null
  /-- a truth value -/
  | bool (b : Bool)
  /-- a number -/
  | number (n : Number)
  /-- a string -/
  | string (s : String)
  /-- an array -/
  | array (items : List Json)
  /-- an object, its members in order -/
  | object (members : List (String × Json))
  deriving BEq

/-- The members of an object that is being built: each name once, in order of first insertion. -/
abbrev Object : Type := Ordered String Json

namespace Json

/-- An object as a value. -/
def ofObject (o : Object) : Json := .object o.entries

/-- An integer as a value. -/
def integer (n : Int) : Json := .number (.integer n)

/-- A string, or `null` when absent. -/
def optionalString (s : Option String) : Json := (s.map string).getD null

/-- An array of strings. -/
def stringArray (items : List String) : Json := .array (items.map string)

end Json

end ForgeQuery
