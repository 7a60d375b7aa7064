import ForgeQuery.Pattern.CharSet

/-!
# Patterns of text

A `Pattern` says what a text may look like. It is read from the start of a text and always prefers
one way to go on over the others: the first of two choices, and another round of a greedy loop over
leaving it. A pattern covers a text if the way that it prefers among all that come to an end ends
exactly with the text; `Pattern.covers` decides that.

A pattern is followed a character at a time. `Pattern.moves` lists what it may do next, the
preferred first; once a way is done, those behind it do not count any more (`Pattern.advance`).
-/

namespace ForgeQuery

/-- A place between two characters, or at an end of a text. -/
inductive Border where
  /-- the start of the text -/
  | start
  /-- the end of the text -/
  | finish
  /-- the start of a line -/
  | lineStart
  /-- the end of a line -/
  | lineEnd
  deriving DecidableEq

/-- Whether a border is where it is said to be, by the characters on its two sides. -/
def Border.holds (before after : Option Char) : Border → Bool
  | start => before.isNone
  | finish => after.isNone
  | lineStart => before.all (· == '\n')
  | lineEnd => after.all (· == '\n')

/-- What a text may look like. -/
inductive Pattern where
  /-- nothing -/
  | empty
  /-- nothing, at a border -/
  | border (b : Border)
  /-- a character of a set -/
  | one (s : CharSet)
  /-- one pattern and then another -/
  | sequence (p q : Pattern)
  /-- one pattern or another, the first preferred -/
  | choice (p q : Pattern)
  /-- any number of rounds, each of which takes a character; many preferred if greedy -/
  | loop (greedy : Bool) (p : Pattern)
  /-- a round and then a loop; the round may take nothing, and is the last then -/
  | rounds (greedy : Bool) (p : Pattern)
  deriving DecidableEq

namespace Pattern

/-! ## Composite patterns -/

/-- Whether nothing may be enough for a pattern. -/
def isNullable : Pattern → Bool
  | empty => true
  | border _ => true
  | one _ => false
  | sequence p q => p.isNullable && q.isNullable
  | choice p q => p.isNullable || q.isNullable
  | loop _ _ => true
  | rounds _ p => p.isNullable

/-- A pattern or nothing. -/
def optional (greedy : Bool) (p : Pattern) : Pattern :=
  if greedy then choice p empty else choice empty p

/-- Any number of rounds. -/
def many (greedy : Bool) (p : Pattern) : Pattern :=
  if p.isNullable then optional greedy (rounds greedy p) else loop greedy p

/-- What is left of a pattern, and then another. -/
def andThen (p q : Pattern) : Pattern := if p = empty then q else sequence p q

/-! ## Moves -/

/-- What a pattern may do at a place of a text. -/
inductive Move where
  /-- be done -/
  | done
  /-- take a character of a set and leave a pattern for what follows -/
  | take (s : CharSet) (rest : Pattern)
  deriving DecidableEq

/-- The move behind which another pattern follows. -/
def Move.before (q : Pattern) : Move → List Move
  | done => []
  | take s rest => [take s (rest.andThen q)]

/-- What a pattern may do between two characters, the preferred first. -/
def moves (before after : Option Char) : Pattern → List Move
  | empty => [.done]
  | border b => if b.holds before after then [.done] else []
  | one s => [.take s empty]
  | sequence p q =>
    (moves before after p).eraseDups.flatMap fun m =>
      if m = .done then moves before after q else m.before q
  | choice p q => moves before after p ++ moves before after q
  | loop greedy p =>
    let again := (moves before after p).flatMap (Move.before (loop greedy p))
    if greedy then again ++ [.done] else .done :: again
  | rounds greedy p =>
    (moves before after p).flatMap fun m =>
      if m = .done then [.done] else m.before (loop greedy p)

/-! ## Following a text -/

/-- What is left of a row of patterns, the preferred first, when a character is taken. -/
def advance (before : Option Char) (c : Char) (ps : List Pattern) : List Pattern :=
  let ahead := (ps.flatMap (moves before (some c))).takeWhile (· ≠ .done)
  (ahead.flatMap fun m =>
    match m with
    | .done => []
    | .take s rest => if s.has c then [rest] else []).eraseDups

/-- Whether one of a row of patterns, the preferred first, covers a text. -/
def anyCovers (before : Option Char) (ps : List Pattern) : Text → Bool
  | [] => ps.any fun p => (p.moves before none).contains .done
  | c :: t => anyCovers (some c) (advance before c ps) t

/-- Whether a pattern covers a text. -/
def covers (p : Pattern) (t : Text) : Bool := anyCovers none [p] t

end Pattern

end ForgeQuery
