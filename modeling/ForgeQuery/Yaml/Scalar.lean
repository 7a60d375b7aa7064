import ForgeQuery.Text.Numeral
import ForgeQuery.Yaml.Scan

/-!
# YAML scalars

Three kinds of scalars are read here: plain ones, quoted ones and blocks. In plain and quoted
scalars lines are folded: blanks around a line break vanish, a single break becomes a space, and of
several breaks all but the first remain. Blocks keep their line breaks or fold them, by their
header.
-/

namespace ForgeQuery

namespace Yaml

/-! ## Folding -/

/-- A text that is being put together, with what stands between its last word and the next. -/
structure Folding where
  /-- the text so far -/
  text : String
  /-- the blanks since the last word, on the line of that word -/
  blanks : String
  /-- whether a line has ended since the last word -/
  broken : Bool
  /-- whether that line end counts as a break; an escaped one does not -/
  folds : Bool
  /-- the line breaks after the first -/
  moreBreaks : String

namespace Folding

/-- Nothing has been read. -/
def start : Folding := ⟨"", "", false, false, ""⟩

/-- Nothing has been read since the last word, which ended with the text as it is. -/
def ofText (text : String) : Folding := { start with text }

/-- A blank follows. Once a line has ended blanks do not matter. -/
def blank (f : Folding) (c : Char) : Folding :=
  if f.broken then f else { f with blanks := f.blanks.push c }

/-- A line break follows. -/
def lineBreak (f : Folding) : Folding :=
  if f.broken then { f with moreBreaks := f.moreBreaks.push '\n' }
  else { f with blanks := "", broken := true, folds := true }

/-- The text with what stands between its last word and the next put into it. -/
def joined (f : Folding) : String :=
  if f.broken then
    if f.folds && f.moreBreaks.isEmpty then f.text.push ' ' else f.text ++ f.moreBreaks
  else f.text ++ f.blanks

/-- A character of a word follows. -/
def word (f : Folding) (c : Char) : Folding := ofText (f.joined.push c)

end Folding

namespace Scan

/-! ## Plain scalars -/

/-- Whether a plain scalar ends at the character at hand: at a colon before a gap, and inside flow
collections at their indicators. -/
def atPlainEnd (inFlow : Bool) : Scan Bool := do
  let c ← peek 0
  let next ← peek 1
  return (c == ':' && (isGap next || (inFlow && isFlowIndicator next)))
    || (inFlow && isFlowIndicator c)

/-- The characters of a plain scalar up to the next gap or its end. -/
def plainWord (inFlow : Bool) (f : Folding) : Scan Folding := do
  let rec go : Nat → Folding → Scan Folding
    | 0, f => pure f
    | n + 1, f => do
      let c ← peek 0
      if isGap c || (← atPlainEnd inFlow) then return f
      skip
      go n (f.word c)
  go (← fuel) f

/-- Blanks and line breaks. A tab may not stand where the indentation of a continued plain scalar
belongs. -/
def foldGap (tabsFrom : Option Int) (f : Folding) : Scan Folding := do
  let rec go : Nat → Folding → Scan Folding
    | 0, f => pure f
    | n + 1, f => do
      let c ← peek 0
      if isSpace c then
        match tabsFrom with
        | some indent =>
          guard !(f.broken && c == '\t' && decide (((← column) : Int) < indent))
        | none => pure ()
        skip
        go n (f.blank c)
      else if isBreak c then
        skipBreak
        go n f.lineBreak
      else return f
  go (← fuel) f

/-- A plain scalar. It goes on over lines that are further in than the block collection it stands
in, and ends at comments, document markers and structure. -/
def plainScalar : Scan Unit := do
  let s ← get
  let inFlow := s.inFlow
  let indent := s.indent + 1
  let rec go : Nat → Folding → Scan Folding
    | 0, f => pure f
    | n + 1, f => do
      if (← atAnyDocumentMarker) || (← peek 0) == '#' then return f
      let f ← plainWord inFlow f
      let c ← peek 0
      if !(isSpace c || isBreak c) then return f
      let f ← foldGap (some indent) f
      if !inFlow && decide (((← column) : Int) < indent) then return f
      go n f
  let f ← go (← fuel) .start
  if f.broken then allowKey true
  push (.scalar true f.text)

/-! ## Quoted scalars -/

/-- The escapes of one letter in double quotes. -/
def escapes : List (Char × Char) :=
  [('0', '\x00'), ('a', '\x07'), ('b', '\x08'), ('t', '\t'), ('\t', '\t'), ('n', '\n'),
    ('v', '\x0b'), ('f', '\x0c'), ('r', '\r'), ('e', '\x1b'), (' ', ' '), ('"', '"'),
    ('\'', '\''), ('\\', '\\'), ('N', '\u0085'), ('_', '\u00a0'), ('L', '\u2028'),
    ('P', '\u2029')]

/-- The number of hexadecimal digits of the escapes that give a code point. -/
def codeLengths : List (Char × Nat) := [('x', 2), ('u', 4), ('U', 8)]

/-- The value of hexadecimal digits, of which there have to be exactly `n`. -/
def hexNumber? (n : Nat) (digits : Text) : Option Nat := do
  guard (digits.length == n)
  digits.foldlM (fun value c => do return 16 * value + (← Text.hexValue? c)) 0

/-- The character of an escape, the backslash being at hand. -/
def escapedChar : Scan Char := do
  let c ← peek 1
  match escapes.lookup c with
  | some d => do
    skipMany 2
    return d
  | none => do
    let n ← codeLengths.lookup c
    skipMany 2
    let code ← hexNumber? n ((← get).rest.take n)
    guard (decide code.isValidChar)
    skipMany n
    return Char.ofNat code

/-- The characters of a quoted scalar up to the next gap, the closing quote, or a line break that
a backslash takes out of the text. -/
def quotedWord (single : Bool) (text : String) : Scan Folding := do
  let rec go : Nat → String → Scan Folding
    | 0, text => pure (.ofText text)
    | n + 1, text => do
      let c ← peek 0
      let next ← peek 1
      if isGap c then return .ofText text
      if single then
        if c == '\'' && next == '\'' then
          skipMany 2
          go n (text.push '\'')
        else if c == '\'' then return .ofText text
        else
          skip
          go n (text.push c)
      else if c == '"' then return .ofText text
      else if c == '\\' && isBreak next then
        skip
        skipBreak
        return { Folding.ofText text with broken := true }
      else if c == '\\' then
        let d ← escapedChar
        go n (text.push d)
      else
        skip
        go n (text.push c)
  go (← fuel) text

/-- A quoted scalar, from its opening quote to its closing one. -/
def quotedScalar (single : Bool) : Scan Unit := do
  let close := if single then '\'' else '"'
  skip
  let rec go : Nat → String → Scan String
    | 0, _ => failure
    | n + 1, text => do
      guard !(← atAnyDocumentMarker)
      guard ((← peek 0) != endMark)
      let f ← quotedWord single text
      if (← peek 0) == close then return f.text
      let f ← foldGap none f
      go n f.joined
  let text ← go (← fuel) ""
  skip
  modify fun s => { s with adjacentAt := s.position.index }
  push (.scalar false text)

/-! ## Block scalars -/

/-- What the header of a block says about the line breaks at its end. -/
inductive Chomping where
  /-- the last line break stays -/
  | clip
  /-- none stays -/
  | strip
  /-- all stay -/
  | keep
  deriving DecidableEq

/-- The sign for the line breaks at the end of a block, if there is one. -/
def chomping? : Scan (Option Chomping) := do
  match ← peek 0 with
  | '+' => do
    skip
    return some .keep
  | '-' => do
    skip
    return some .strip
  | _ => return none

/-- The digit for the indentation of a block, if there is one; it may not be zero. -/
def blockIndent? : Scan (Option Nat) := do
  let c ← peek 0
  if Text.isDecimal c then
    guard (c != '0')
    skip
    return some (c.toNat - 48)
  else return none

/-- The header of a block: both signs in either order. -/
def blockHeader : Scan (Chomping × Option Nat) := do
  match ← chomping? with
  | some chomping => return (chomping, ← blockIndent?)
  | none =>
    match ← blockIndent? with
    | some n => return ((← chomping?).getD .clip, some n)
    | none => return (.clip, none)

/-- Empty lines and the indentation in front of the next line with content. An indentation of zero
is not known yet, and comes out as the largest one met, but further in than the block collection
around and at least one. -/
def blockBreaks (indent : Nat) (breaks : String) : Scan (Nat × String) := do
  let rec spaces : Nat → Scan Unit
    | 0 => pure ()
    | n + 1 => do
      if (indent == 0 || (← column) < indent) && (← peek 0) == ' ' then
        skip
        spaces n
  let rec go : Nat → Nat → String → Scan (Nat × String)
    | 0, largest, breaks => pure (largest, breaks)
    | n + 1, largest, breaks => do
      spaces (← fuel)
      let largest := max largest (← column)
      guard !((indent == 0 || (← column) < indent) && (← peek 0) == '\t')
      if isBreak (← peek 0) then
        skipBreak
        go n largest (breaks.push '\n')
      else return (largest, breaks)
  let (largest, breaks) ← go (← fuel) 0 breaks
  if indent == 0 then
    return (max 1 (max largest ((← get).indent + 1).toNat), breaks)
  else return (indent, breaks)

/-- The content of a block: the text, the break that ends its last line, and the breaks behind
it. -/
structure BlockContent where
  /-- the text without the end of its last line -/
  text : String
  /-- the break that ends the last line, if there is one -/
  lastBreak : String
  /-- the breaks of the empty lines behind -/
  breaks : String
  /-- whether the last line starts with a blank -/
  blankStart : Bool

/-- A line of a block put behind what has been read. In a folding block the break between two
lines that start with no blank becomes a space, or vanishes when empty lines stand between. -/
def BlockContent.line (b : BlockContent) (literal : Bool) (line : Text) : BlockContent :=
  let blankStart := (line.head?.map isSpace).getD false
  let between :=
    if !literal && b.lastBreak != "" && !b.blankStart && !blankStart then
      if b.breaks == "" then " " else ""
    else b.lastBreak
  { text := b.text ++ between ++ b.breaks ++ String.ofList line
    lastBreak := ""
    breaks := ""
    blankStart }

/-- A block scalar, from its indicator on. -/
def blockScalar (literal : Bool) : Scan Unit := do
  skip
  let (chomping, increment) ← blockHeader
  skipLineEnd
  let outer := (← get).indent
  let indent :=
    match increment with
    | some n => (max outer 0).toNat + n
    | none => 0
  let (indent, breaks) ← blockBreaks indent ""
  let rec go : Nat → BlockContent → Scan BlockContent
    | 0, b => pure b
    | n + 1, b => do
      if (← column) != indent || (← peek 0) == endMark then return b
      let line ← takeWhile fun c => !isBreak c
      let b := b.line literal line
      if (← peek 0) == endMark then return b
      skipBreak
      let (_, breaks) ← blockBreaks indent ""
      go n { b with lastBreak := "\n", breaks }
  let b ← go (← fuel) ⟨"", "", breaks, false⟩
  let text :=
    match chomping with
    | .strip => b.text
    | .clip => b.text ++ b.lastBreak
    | .keep => b.text ++ b.lastBreak ++ b.breaks
  push (.scalar false text)

end Scan

end Yaml

end ForgeQuery
