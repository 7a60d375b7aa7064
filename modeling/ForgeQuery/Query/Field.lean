import ForgeQuery.Query.Argument

/-!
# Field expressions

A unit of a selection body names a field, gives it arguments and selects parts of the answer:
`repo(id: "utils-lib") { id name }`. Reading is against the whole unit. Blanks are allowed after
the name and after the argument list, and nowhere else outside the brackets.

The two bracket readers are shared with documents: `parenthesised?` takes an optional list up to
the first closing parenthesis, `braced?` the text between a first and a last brace.
-/

namespace ForgeQuery

/-! ## Brackets -/

/-- An optional parenthesised list at the start of a text, with the trimmed rest. The list ends at
the first closing parenthesis; an unclosed list is refused. -/
def parenthesised? (t : Text) : Option (Option Text × Text) :=
  match t with
  | '(' :: inside =>
    (Text.splitFirst? ')' inside).map fun parts => (some parts.1, Text.trimStart parts.2)
  | _ => some (none, t)

/-- The text between an opening brace at the very start and a closing one at the very end. -/
def braced? (t : Text) : Option Text :=
  match t with
  | '{' :: inside => Text.stripLast? '}' inside
  | _ => none

/-! ## Reading a unit -/

/-- One unit of a selection body. -/
structure FieldExpression where
  /-- the field that is named -/
  name : String
  /-- the string arguments; other arguments are ignored -/
  arguments : Ordered String String
  /-- the text between the braces, absent when there are none or nothing between them -/
  subSelection : Option Text
  deriving DecidableEq

namespace FieldExpression

/-- The sub-selection that the rest of a unit gives: none for an empty rest, and else what stands
between the braces that have to enclose it. -/
def subSelection? (rest : Text) : Option (Option Text) :=
  match rest with
  | [] => some none
  | _ => (braced? rest).map fun sub => if sub.isEmpty then none else some sub

/-- Read a unit, which has to be a name, an optional argument list and an optional braced
sub-selection from its first to its last character. -/
def parse? (unit : Text) : Option FieldExpression :=
  match Text.takeName unit with
  | ([], _) => none
  | (name, rest) => do
    let (list, rest) ← parenthesised? (Text.trimStart rest)
    let sub ← subSelection? rest
    some {
      name := String.ofList name
      arguments := (list.map stringArguments).getD ∅
      subSelection := sub }

/-- The value of the string argument `key`. -/
def argument? (field : FieldExpression) (key : String) : Option String :=
  field.arguments.get? key

end FieldExpression

end ForgeQuery
