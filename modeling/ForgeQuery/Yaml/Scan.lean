import ForgeQuery.Yaml.Token

/-!
# The state of a YAML scan

A scan reads characters and collects tokens, or refuses the text. Its state is what is left of the
text and the position reached, the tokens so far, the indentation of the open block collections,
and, for each level of flow collections, the token that may still turn out to be a key.

A line feed alone starts a new line; a carriage return on its own ends one without moving the
position to the next.
-/

namespace ForgeQuery

namespace Yaml

/-- A place in the text. -/
structure Position where
  /-- the number of characters before it -/
  index : Nat
  /-- the number of line feeds before it -/
  line : Nat
  /-- the number of characters since the last line feed -/
  column : Nat

/-- A token that may turn out to be a key. -/
structure KeyCandidate where
  /-- whether it still may -/
  possible : Bool
  /-- whether it has to: inside a flow collection only a key may stand at the column of the block
  collection around it -/
  required : Bool
  /-- the number of tokens before it -/
  token : Nat
  /-- where it starts -/
  position : Position

/-- The candidate of a level on which nothing has been read. -/
def KeyCandidate.none : KeyCandidate := ⟨false, false, 0, ⟨0, 0, 0⟩⟩

/-- The state of a scan. -/
structure Scanner where
  /-- the number of characters of the whole text -/
  size : Nat
  /-- the text that is left -/
  rest : Text
  /-- where it starts -/
  position : Position
  /-- the tokens so far -/
  tokens : Array Token
  /-- the candidate of the innermost flow level, or of the block level outside all of them -/
  candidate : KeyCandidate
  /-- the candidates of the levels around it, the innermost first -/
  outerCandidates : List KeyCandidate
  /-- whether a key may start here -/
  keyAllowed : Bool
  /-- the column of the innermost block collection, below zero for none -/
  indent : Int
  /-- the columns of the block collections around it, the innermost first -/
  outerIndents : List Int
  /-- the index behind the last quoted scalar, where a colon needs no gap behind it -/
  adjacentAt : Nat

/-- A step of a scan, which may refuse the text. -/
abbrev Scan : Type → Type := StateT Scanner Option

/-- The state in front of a text. -/
def Scanner.start (t : Text) : Scanner where
  size := t.length
  rest := t
  position := ⟨0, 1, 0⟩
  tokens := #[]
  candidate := .none
  outerCandidates := []
  keyAllowed := true
  indent := -1
  outerIndents := []
  adjacentAt := 0

/-- Whether the scan is inside a flow collection. -/
def Scanner.inFlow (s : Scanner) : Bool := !s.outerCandidates.isEmpty

/-- The character `n` places ahead; behind the text there are only end marks. -/
def Scanner.ahead (s : Scanner) (n : Nat) : Char := (s.rest[n]?).getD endMark

namespace Scan

/-! ## Reading on -/

/-- The character `n` places ahead. -/
def peek (n : Nat) : Scan Char := do return (← get).ahead n

/-- The column reached. -/
def column : Scan Nat := do return (← get).position.column

/-- Step over one character. -/
def skip : Scan Unit := modify fun s =>
  let p := s.position
  { s with
    rest := s.rest.tail
    position :=
      if s.ahead 0 == '\n' then ⟨p.index + 1, p.line + 1, 0⟩
      else ⟨p.index + 1, p.line, p.column + 1⟩ }

/-- Step over a number of characters. -/
def skipMany : Nat → Scan Unit
  | 0 => pure ()
  | n + 1 => do
    skip
    skipMany n

/-- Step over a line break, which may be a carriage return and a line feed together. -/
def skipBreak : Scan Unit := do
  if (← peek 0) == '\r' && (← peek 1) == '\n' then skipMany 2
  else if isBreak (← peek 0) then skip

/-- A number of rounds that is enough for anything that takes a character in each round but the
last. -/
def fuel : Scan Nat := do return (← get).size + 1

/-- Repeat a step as long as it says so, and at most as often as there is fuel. -/
def repeatWhile (body : Scan Bool) : Scan Unit := do
  let rec go : Nat → Scan Unit
    | 0 => pure ()
    | n + 1 => do if ← body then go n
  go (← fuel)

/-- The characters up to the first that fails a test, which are stepped over. -/
def takeWhile (test : Char → Bool) : Scan Text := do
  let word := (← get).rest.takeWhile fun c => c != endMark && test c
  skipMany word.length
  return word

/-- Step over the characters up to the first that fails a test. -/
def skipWhile (test : Char → Bool) : Scan Unit := do
  let _ ← takeWhile test

/-- Step over spaces, tabs and a comment, after which the line has to end. -/
def skipLineEnd : Scan Unit := do
  skipWhile isSpace
  if (← peek 0) == '#' then skipWhile fun c => !isBreak c
  guard (isBreakOrEnd (← peek 0))
  skipBreak

/-- Whether a document marker stands here. -/
def atDocumentMarker (mark : Char) : Scan Bool := do
  return (← column) == 0 && (← peek 0) == mark && (← peek 1) == mark && (← peek 2) == mark
    && isGap (← peek 3)

/-- Whether either of the two document markers stands here. -/
def atAnyDocumentMarker : Scan Bool := do
  return (← atDocumentMarker '-') || (← atDocumentMarker '.')

/-! ## Tokens -/

/-- Add a token. -/
def push (t : Token) : Scan Unit := modify fun s => { s with tokens := s.tokens.push t }

/-- Put a token in front of the token with a given number. -/
def insertAt (n : Nat) (t : Token) : Scan Unit := modify fun s =>
  { s with tokens := s.tokens.insertIdxIfInBounds n t }

/-! ## Candidates for keys -/

/-- Say whether a key may start here. -/
def allowKey (allowed : Bool) : Scan Unit := modify fun s => { s with keyAllowed := allowed }

/-- Give the candidate of this level up, unless it has to become a key. -/
def dropCandidate : Scan Unit := do
  let candidate := (← get).candidate
  guard !(candidate.possible && candidate.required)
  modify fun s => { s with candidate := { candidate with possible := false } }

/-- Make the token that comes next the candidate of this level, if a key may start here. -/
def noteCandidate : Scan Unit := do
  let s ← get
  if s.keyAllowed then
    dropCandidate
    modify fun s => { s with
      candidate := {
        possible := true
        required := s.inFlow && s.indent == (s.position.column : Int)
        token := s.tokens.size
        position := s.position } }

/-- A key stands on one line and takes at most 1024 characters, so older candidates are given up;
one that has to become a key is a refusal instead. -/
def dropStaleCandidates : Scan Unit := do
  let s ← get
  let stale (c : KeyCandidate) : Bool :=
    c.possible
      && (c.position.line < s.position.line || c.position.index + 1024 < s.position.index)
  guard !((s.candidate :: s.outerCandidates).any fun c => stale c && c.required)
  let refresh (c : KeyCandidate) : KeyCandidate :=
    if stale c then { c with possible := false } else c
  set { s with
    candidate := refresh s.candidate
    outerCandidates := s.outerCandidates.map refresh }

/-! ## Indentation -/

/-- Open a block collection at a column that is further in than the innermost one. Its start goes
in front of the token with the number `before`, or to the end. -/
def openBlock (column : Nat) (before : Option Nat) (start : Token) : Scan Unit := do
  let s ← get
  if !s.inFlow && s.indent < (column : Int) then
    set { s with indent := (column : Int), outerIndents := s.indent :: s.outerIndents }
    match before with
    | some n => insertAt n start
    | none => push start

/-- Close the block collections that are further in than a column. -/
def closeBlocks (column : Int) : Scan Unit := do
  if !(← get).inFlow then
    let rec go : List Int → Scan Unit
      | [] => pure ()
      | outer :: rest => do
        if column < (← get).indent then
          push .blockEnd
          modify fun s => { s with indent := outer, outerIndents := rest }
          go rest
    go (← get).outerIndents

end Scan

end Yaml

end ForgeQuery
