import ForgeQuery.Yaml.Scalar

/-!
# YAML anchors, tags and directives

What may stand in front of a node, and the lines that may stand in front of a document. Directives
are checked for their form and have no other effect; in particular a handle that a directive
declares is not looked up when a tag uses it.
-/

namespace ForgeQuery

namespace Yaml

namespace Scan

/-! ## Anchors -/

/-- The characters that may follow an anchor or a reference besides gaps. -/
def followsAnchor (c : Char) : Bool :=
  isGap c || c == '?' || c == ':' || c == ',' || c == ']' || c == '\x7d' || c == '%' || c == '@'
    || c == '\x60'

/-- The name of an anchor or a reference, its indicator being at hand. -/
def anchorName : Scan Text := do
  skip
  let name ← takeWhile isWordChar
  guard (!name.isEmpty && followsAnchor (← peek 0))
  return name

/-! ## Tags -/

/-- The characters of a tag besides letters and digits. -/
def isTagChar (c : Char) : Bool :=
  isWordChar c || (";/?:@&=+$,.!~*'()[]%".toList.contains c)

/-- The value of a byte that is written as a percent sign and two hexadecimal digits. -/
def escapedByte : Scan Nat := do
  guard ((← peek 0) == '%')
  let high ← Text.hexValue? (← peek 1)
  let low ← Text.hexValue? (← peek 2)
  skipMany 3
  return 16 * high + low

/-- The number of bytes of a character, by the first of them. -/
def encodedLength? (lead : Nat) : Option Nat :=
  if lead < 0x80 then some 1
  else if 0xC0 ≤ lead ∧ lead < 0xE0 then some 2
  else if 0xE0 ≤ lead ∧ lead < 0xF0 then some 3
  else if 0xF0 ≤ lead ∧ lead < 0xF8 then some 4
  else none

/-- A character that is written byte by byte. Its code is that of the bytes put side by side, so
only those of one byte come out as a character of the encoding. -/
def escapedTagChar : Scan Char := do
  let lead ← escapedByte
  let length ← encodedLength? lead
  let rec go : Nat → Nat → Scan Nat
    | 0, code => pure code
    | n + 1, code => do
      let byte ← escapedByte
      guard (0x80 ≤ byte && byte < 0xC0)
      go n (256 * code + byte)
  let code ← go (length - 1) lead
  guard (decide code.isValidChar)
  return Char.ofNat code

/-- The characters of a tag. -/
def tagChars : Scan Text := do
  let rec go : Nat → Text → Scan Text
    | 0, read => pure read.reverse
    | n + 1, read => do
      let c ← peek 0
      if !isTagChar c then return read.reverse
      if c == '%' then
        let d ← escapedTagChar
        go n (d :: read)
      else
        skip
        go n (c :: read)
  go (← fuel) []

/-- The handle of a tag: an exclamation mark, word characters, and an exclamation mark if one
follows. -/
def tagHandle : Scan Text := do
  guard ((← peek 0) == '!')
  skip
  let word ← takeWhile isWordChar
  if (← peek 0) == '!' then
    skip
    return '!' :: word ++ ['!']
  else return '!' :: word

/-- A tag, its exclamation mark being at hand. It is given in full between angle brackets, or as a
handle and a suffix, or as a suffix alone; a gap has to follow. -/
def tag : Scan Tag := do
  let t : Tag ←
    if (← peek 1) == '<' then do
      skipMany 2
      let suffix ← tagChars
      guard (!suffix.isEmpty && (← peek 0) == '>')
      skip
      pure ⟨"", String.ofList suffix⟩
    else do
      let handle ← tagHandle
      if 2 ≤ handle.length && handle.getLast? == some '!' then do
        let suffix ← tagChars
        guard !suffix.isEmpty
        pure ⟨String.ofList handle, String.ofList suffix⟩
      else do
        let suffix := handle.tail ++ (← tagChars)
        pure (if suffix.isEmpty then ⟨"", "!"⟩ else ⟨"!", String.ofList suffix⟩)
  guard (isGap (← peek 0))
  return t

/-! ## Directives -/

/-- A number of a version, of at most nine digits. -/
def versionNumber : Scan Unit := do
  let digits ← takeWhile Text.isDecimal
  guard (!digits.isEmpty && digits.length ≤ 9)

/-- A directive line, its percent sign being at hand. The two directives of the format have a fixed
form, any other is taken as it is. -/
def directive : Scan Unit := do
  skip
  let name ← takeWhile isWordChar
  guard (!name.isEmpty && isGap (← peek 0))
  if name == "YAML".toList then
    skipWhile isSpace
    versionNumber
    guard ((← peek 0) == '.')
    skip
    versionNumber
  else if name == "TAG".toList then
    skipWhile isSpace
    let handle ← tagHandle
    guard (handle == ['!'] || handle.getLast? == some '!')
    skipWhile isSpace
    let uri ← tagChars
    guard (!uri.isEmpty && isGap (← peek 0))
  else
    skipWhile fun c => !isBreak c
  skipLineEnd
  push .directive

end Scan

end Yaml

end ForgeQuery
