import ForgeQuery.Json.Basic

/-!
# Writing JSON

The two texts of a value: the compact one, without a blank, and the indented one, a member or item
to a line and two blanks to a level, where empty arrays and objects stay on one line.

In both, strings escape the quote, the backslash and the characters below `U+0020`, those with a
short escape by it and the others by four lower-case hexadecimal digits, and nothing else. Numbers
are written by `Number.render`.
-/

namespace ForgeQuery

/-! ## Numbers -/

/-- The digits of an integer, a minus in front of a negative one. -/
def renderInteger : Int → Text
  | .ofNat n => Text.decimal n
  | .negSucc n => '-' :: Text.decimal (n + 1)

/-- The digits of an integer, with a plus or a minus in front. -/
def renderSigned : Int → Text
  | .ofNat n => '+' :: renderInteger n
  | n => renderInteger n

/-- The digits of a magnitude `digits · 10 ^ scale`. The point is written out while it falls less
than five places before the first digit and at most sixteen behind it; beyond that the first digit
is followed by the others behind a point and by the power of ten, which shows its sign. -/
def renderMagnitude (digits : Nat) (scale : Int) : Text :=
  let shown := Text.decimal digits
  let point := (shown.length : Int) + scale
  if 0 ≤ scale ∧ point ≤ 16 then shown ++ List.replicate scale.toNat '0' ++ ['.', '0']
  else if 0 < point ∧ point ≤ 16 then
    shown.take point.toNat ++ '.' :: shown.drop point.toNat
  else if -5 < point ∧ point ≤ 0 then
    ['0', '.'] ++ List.replicate (-point).toNat '0' ++ shown
  else
    let power := 'e' :: renderSigned (point - 1)
    match shown with
    | [] => power
    | [d] => d :: power
    | d :: rest => d :: '.' :: rest ++ power

/-- The text of a number: an integer in full, a floating point number by its shortest decimal. -/
def Number.render : Number → Text
  | .integer n => renderInteger n
  | .float x =>
    let (digits, scale) := x.shortest
    let magnitude := renderMagnitude digits scale
    if x.negative then '-' :: magnitude else magnitude

/-! ## Strings -/

/-- The written form of a character inside a string. -/
def escapeChar (c : Char) : Text :=
  if c = '"' then ['\\', '"']
  else if c = '\\' then ['\\', '\\']
  else if 0x20 ≤ c.toNat then [c]
  else if c.toNat = 0x08 then ['\\', 'b']
  else if c.toNat = 0x09 then ['\\', 't']
  else if c.toNat = 0x0A then ['\\', 'n']
  else if c.toNat = 0x0C then ['\\', 'f']
  else if c.toNat = 0x0D then ['\\', 'r']
  else ['\\', 'u', '0', '0', Text.hexDigit (c.toNat / 16), Text.hexDigit (c.toNat % 16)]

/-- The written form of a string, quotes included. -/
def renderString (s : String) : Text := '"' :: (s.toList.flatMap escapeChar ++ ['"'])

namespace Json

/-! ## The compact text -/

mutual

/-- The compact text of a value. -/
def render : Json → Text
  | .null => ['n', 'u', 'l', 'l']
  | .bool true => ['t', 'r', 'u', 'e']
  | .bool false => ['f', 'a', 'l', 's', 'e']
  | .number n => n.render
  | .string s => renderString s
  | .array items => '[' :: renderItems items
  | .object members => '{' :: renderMembers members

/-- The items of an array and its closing bracket. -/
def renderItems : List Json → Text
  | [] => [']']
  | [v] => render v ++ [']']
  | v :: rest => render v ++ ',' :: renderItems rest

/-- The members of an object and its closing brace. -/
def renderMembers : List (String × Json) → Text
  | [] => ['}']
  | [(name, v)] => renderString name ++ ':' :: render v ++ ['}']
  | (name, v) :: rest => renderString name ++ ':' :: render v ++ ',' :: renderMembers rest

end

/-- The compact text of a value as a string. -/
def compact (v : Json) : String := String.ofList v.render

/-! ## The indented text -/

/-- A line break and the blanks of a level. -/
def lineAt (level : Nat) : Text := '\n' :: List.replicate (2 * level) ' '

mutual

/-- The indented text of a value that stands on a line of the given level. -/
def renderIndented (level : Nat) : Json → Text
  | .array (v :: rest) => '[' :: indentItems (level + 1) (v :: rest) ++ lineAt level ++ [']']
  | .object (m :: rest) => '{' :: indentMembers (level + 1) (m :: rest) ++ lineAt level ++ ['}']
  | .array [] => ['[', ']']
  | .object [] => ['{', '}']
  | .null => ['n', 'u', 'l', 'l']
  | .bool b => render (.bool b)
  | .number n => n.render
  | .string s => renderString s

/-- Items, each on a line of its own. -/
def indentItems (level : Nat) : List Json → Text
  | [] => []
  | [v] => lineAt level ++ renderIndented level v
  | v :: rest => lineAt level ++ renderIndented level v ++ ',' :: indentItems level rest

/-- Members, each on a line of its own. -/
def indentMembers (level : Nat) : List (String × Json) → Text
  | [] => []
  | [(name, v)] => lineAt level ++ renderString name ++ [':', ' '] ++ renderIndented level v
  | (name, v) :: rest =>
    lineAt level ++ renderString name ++ [':', ' '] ++ renderIndented level v
      ++ ',' :: indentMembers level rest

end

/-- The indented text of a value as a string. -/
def indented (v : Json) : String := String.ofList (v.renderIndented 0)

end Json

end ForgeQuery
