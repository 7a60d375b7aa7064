import ForgeQuery.Yaml.Property

/-!
# The tokens of a YAML text

`Yaml.tokens?` turns a text into its tokens. Between tokens blanks, comments and line breaks are
stepped over; then the column decides which block collections end, and the character at hand which
token comes next. A round consumes at least one character, so there are at most as many rounds as
characters and one more for the end of the stream.
-/

namespace ForgeQuery

namespace Yaml

namespace Scan

/-! ## Single tokens -/

/-- Blanks, comments and line breaks. A tab counts as a blank only where no key can start. -/
def skipToToken : Scan Unit := repeatWhile do
  let s ← get
  match s.ahead 0 with
  | ' ' => do
    skip
    return true
  | '\t' => do
    if s.inFlow || !s.keyAllowed then
      skip
      return true
    else return false
  | '\n' | '\r' => do
    skipBreak
    if !s.inFlow then allowKey true
    return true
  | '#' => do
    skipWhile fun c => !isBreak c
    return true
  | _ => return false

/-- A token that stands for a given number of characters. -/
def indicator (length : Nat) (t : Token) : Scan Unit := do
  skipMany length
  push t

/-- What comes between documents closes all blocks and cannot be a key. -/
def leaveDocument : Scan Unit := do
  closeBlocks (-1)
  dropCandidate
  allowKey false

/-- The end of the stream. -/
def streamEnd : Scan Unit := do
  leaveDocument
  push .streamEnd

/-- The start of a flow collection, which may itself be a key. -/
def flowStart (t : Token) : Scan Unit := do
  noteCandidate
  modify fun s => { s with
    candidate := .none
    outerCandidates := s.candidate :: s.outerCandidates }
  allowKey true
  indicator 1 t

/-- The end of a flow collection. -/
def flowEnd (t : Token) : Scan Unit := do
  dropCandidate
  modify fun s =>
    match s.outerCandidates with
    | [] => s
    | c :: rest => { s with candidate := c, outerCandidates := rest }
  allowKey false
  indicator 1 t

/-- The comma between the items of a flow collection. -/
def flowEntry : Scan Unit := do
  dropCandidate
  allowKey true
  indicator 1 .flowEntry

/-- The dash of an item, which opens a sequence at its column. -/
def blockEntry : Scan Unit := do
  let s ← get
  guard (!s.inFlow && s.keyAllowed)
  openBlock s.position.column none .blockSequenceStart
  dropCandidate
  allowKey true
  indicator 1 .blockEntry

/-- The question mark in front of a key. -/
def explicitKey : Scan Unit := do
  let s ← get
  if !s.inFlow then
    guard s.keyAllowed
    openBlock s.position.column none .blockMappingStart
  dropCandidate
  allowKey !s.inFlow
  indicator 1 .key

/-- The colon behind a key. If there is a candidate it was the key, and a mapping starts with it
unless one is open at its column. -/
def valueMark : Scan Unit := do
  let s ← get
  if s.candidate.possible then
    insertAt s.candidate.token .key
    openBlock s.candidate.position.column (some s.candidate.token) .blockMappingStart
    modify fun s => { s with candidate := { s.candidate with possible := false } }
    allowKey false
  else do
    if !s.inFlow then
      guard s.keyAllowed
      openBlock s.position.column none .blockMappingStart
    allowKey !s.inFlow
  indicator 1 .value

/-- A token that may be a key, read by a step of its own. -/
def keyable (keyBehind : Bool) (read : Scan Unit) : Scan Unit := do
  noteCandidate
  allowKey keyBehind
  read

/-- Whether the colon at hand ends a key. -/
def isValueMark (s : Scanner) : Bool :=
  let next := s.ahead 1
  isGap next
    || (s.inFlow && (isFlowIndicator next || s.position.index == s.adjacentAt))

/-- The token at hand, which is neither the end of the stream, nor a directive, nor a document
marker. -/
def nodeToken : Scan Unit := do
  let s ← get
  let c := s.ahead 0
  let gapNext := isGap (s.ahead 1)
  if c == '[' then flowStart .flowSequenceStart
  else if c == '\x7b' then flowStart .flowMappingStart
  else if c == ']' then flowEnd .flowSequenceEnd
  else if c == '\x7d' then flowEnd .flowMappingEnd
  else if c == ',' then flowEntry
  else if c == '-' && gapNext then blockEntry
  else if c == '?' && gapNext then explicitKey
  else if c == ':' && isValueMark s then valueMark
  else if c == '*' then keyable false do push (.alias (← anchorName))
  else if c == '&' then keyable false do push (.anchor (← anchorName))
  else if c == '!' then keyable false do push (.tag (← tag))
  else if c == '|' && !s.inFlow then keyable true (blockScalar true)
  else if c == '>' && !s.inFlow then keyable true (blockScalar false)
  else if c == '\'' then keyable false (quotedScalar true)
  else if c == '"' then keyable false (quotedScalar false)
  else if c == '%' || c == '@' || c == '\x60' then failure
  else keyable false plainScalar

/-- The next token, with those that have to come before it; whether there may be more. -/
def nextToken : Scan Bool := do
  skipToToken
  dropStaleCandidates
  closeBlocks ((← column) : Int)
  if (← peek 0) == endMark then
    streamEnd
    return false
  if (← column) == 0 && (← peek 0) == '%' then
    leaveDocument
    directive
  else if ← atDocumentMarker '-' then
    leaveDocument
    indicator 3 .documentStart
  else if ← atDocumentMarker '.' then
    leaveDocument
    indicator 3 .documentEnd
  else nodeToken
  return true

end Scan

/-- The tokens of a text up to the end of the stream, unless the text is refused. -/
def tokens? (t : Text) : Option (List Token) := do
  let ((), s) ← (Scan.repeatWhile Scan.nextToken).run (.start t)
  some s.tokens.toList

end Yaml

end ForgeQuery
