import ForgeQuery.Pattern.Basic
import ForgeQuery.Text.Cut
import ForgeQuery.Text.Letter
import ForgeQuery.Text.Numeral

/-!
# Reading patterns

The written form of patterns. A character stands for itself, except for these:

* a point is any character but a line feed; brackets hold a set of characters;
* `^` and `$` are the start and the end of the text;
* parentheses group, and a bar separates choices;
* `*`, `+` and `?` ask for any number of rounds, for at least one and for at most one, the many
  preferred; a second `?` behind them prefers the few;
* a backslash takes the meaning from a sign, or makes an escape of a letter.

A group may have a name, which means nothing here, and may start with modes. There are no sets that
depend on the tables of Unicode, so neither escapes for such sets nor the comparison of letters
without regard to case can be read; and rounds cannot be counted, so a brace has to be escaped.
-/

namespace ForgeQuery

namespace Pattern

/-! ## The state of reading -/

/-- How parts of a pattern are understood. -/
structure Modes where
  /-- letters stand for both of their cases -/
  anyCase : Bool
  /-- borders of the text are also those of lines -/
  perLine : Bool
  /-- a point is any character -/
  acrossLines : Bool
  /-- few rounds are preferred, and many with a second sign -/
  fewFirst : Bool

/-- The modes at the start. -/
def Modes.standard : Modes := ⟨false, false, false, false⟩

/-- The modes with the one for a letter switched. -/
def Modes.switch? (on : Bool) (m : Modes) : Char → Option Modes
  | 'i' => some { m with anyCase := on }
  | 'm' => some { m with perLine := on }
  | 's' => some { m with acrossLines := on }
  | 'U' => some { m with fewFirst := on }
  | 'u' => if on then some m else none
  | _ => none

/-- What is left of a written pattern, and how it is understood. -/
structure Source where
  /-- the text that is left -/
  rest : Text
  /-- the modes -/
  modes : Modes
  /-- the names of groups so far -/
  names : List Text

/-- A step of reading, which may refuse the text. -/
abbrev Read : Type → Type := StateT Source Option

namespace Read

/-- The next character, which is stepped over. -/
def next : Read Char := do
  let s ← get
  match s.rest with
  | [] => failure
  | c :: rest => do
    set { s with rest }
    return c

/-- Step over a word if it comes next; whether it did. -/
def accept (word : String) : Read Bool := do
  let s ← get
  match word.toList.isPrefixOf? s.rest with
  | some rest => do
    set { s with rest }
    return true
  | none => return false

/-- The characters up to the first that fails a test, which are stepped over. -/
def takeWhile (test : Char → Bool) : Read Text := do
  let s ← get
  set { s with rest := s.rest.dropWhile test }
  return s.rest.takeWhile test

/-- A number that is enough for anything that takes a character of what is left each time. -/
def fuel : Read Nat := do return (← get).rest.length + 1

/-! ## Escapes -/

/-- The character with a code of so many hexadecimal digits. -/
def code (digits : Nat) : Read Char := do
  let rec go : Nat → Nat → Read Nat
    | 0, n => pure n
    | digits + 1, n => do
      let d ← Text.hexValue? (← next)
      go digits (16 * n + d)
  let n ← go digits 0
  guard (decide n.isValidChar)
  return Char.ofNat n

/-- The character that an escape stands for, the backslash having been read. -/
def escape : Read Char := do
  match ← next with
  | 'a' => return '\x07'
  | 'f' => return '\x0c'
  | 'n' => return '\n'
  | 'r' => return '\r'
  | 't' => return '\t'
  | 'v' => return '\x0b'
  | 'x' => code 2
  | 'u' => code 4
  | 'U' => code 8
  | c => do
    guard (decide (c.toNat < 0x80) && !c.isAlphanum && c != '<' && c != '>')
    return c

/-! ## Sets -/

/-- A character in a set. -/
def member : Read Char := do
  match ← next with
  | '\\' => escape
  | c => return c

/-- A character or a range in a set. A dash that stands at the end of a set or in front of another
dash makes no range. -/
def range : Read CharSet := do
  let first ← member
  match (← get).rest with
  | '-' :: ']' :: _ => return .single first
  | '-' :: '-' :: _ => return .single first
  | '-' :: rest => do
    modify fun s => { s with rest }
    let last ← member
    guard (decide (first.toNat ≤ last.toNat))
    return .range first last
  | _ => return .single first

/-- The set whose name comes next, between colons and behind an opening bracket that has been read;
nothing is read if there is none. -/
def named? : Read (Option CharSet) := do
  let start ← get
  if ← accept ":" then
    let negated ← accept "^"
    let name ← takeWhile (· != ':')
    if ← accept ":]" then
      match CharSet.ofName? name with
      | some s => return some (if negated then .complement s else s)
      | none => pure ()
  set start
  return none

/-- The rest of a set, given what it holds so far and what is to be done with the result. -/
def restOfSet (nested : Read CharSet) : Nat → CharSet → (CharSet → CharSet) → Read CharSet
  | 0, _, _ => failure
  | n + 1, s, finish => do
    if ← accept "]" then return finish s
    else if ← accept "&&" then restOfSet nested n .empty (.inter (finish s))
    else if ← accept "--" then restOfSet nested n .empty (.minus (finish s))
    else if ← accept "~~" then restOfSet nested n .empty (.difference (finish s))
    else if ← accept "[" then
      match ← named? with
      | some t => restOfSet nested n (.union s t) finish
      | none => restOfSet nested n (.union s (← nested)) finish
    else restOfSet nested n (.union s (← range)) finish

/-- A set behind its opening bracket, with at most so many sets around each other. Dashes at its
start stand for themselves, and so does a closing bracket. -/
def charSet : Nat → Read CharSet
  | 0 => failure
  | depth + 1 => do
    let negated ← accept "^"
    let dashes ← takeWhile (· == '-')
    let s : CharSet ←
      if dashes.isEmpty then do
        if ← accept "]" then pure (CharSet.single ']') else pure CharSet.empty
      else pure (CharSet.single '-')
    let s ← restOfSet (charSet depth) (← fuel) s id
    return if negated then .complement s else s

/-! ## Groups -/

/-- A character that may stand in the name of a group, at its start or behind it. -/
def isNameChar (first : Bool) (c : Char) : Bool :=
  c == '_' || (Text.isLetterOrNumber c && !(first && Text.isDecimal c))
    || (!first && (c == '.' || c == '[' || c == ']'))

/-- The name of a group and the bracket behind it. No two groups have the same. -/
def groupName : Read Unit := do
  let name ← takeWhile (· != '>')
  guard (← accept ">")
  match name with
  | [] => failure
  | c :: rest => guard (isNameChar true c && rest.all (isNameChar false))
  guard !((← get).names.contains name)
  modify fun s => { s with names := name :: s.names }

/-- The modes that letters switch on, and those that letters behind a dash switch off. No letter
comes twice. -/
def switchModes (letters : Text) : Read Unit := do
  guard (decide letters.Nodup && letters.getLast? != some '-')
  let (on, off) := (Text.splitFirst? '-' letters).getD (letters, [])
  let start := (← get).modes
  let modes ← (on.foldlM (Modes.switch? true) start).bind (off.foldlM (Modes.switch? false))
  modify fun s => { s with modes }

/-- The body of a group and the parenthesis behind it. Modes that are switched inside the group end
with it. -/
def groupBody (body : Read Pattern) (modes : Modes) : Read Pattern := do
  let p ← body
  guard (← accept ")")
  modify fun s => { s with modes }
  return p

/-- A group behind its opening parenthesis, or nothing but a switch of modes. -/
def group? (body : Read Pattern) : Read (Option Pattern) := do
  let modes := (← get).modes
  if ← accept "?" then
    if (← accept "P<") || (← accept "<") then
      groupName
      return some (← groupBody body modes)
    else
      let letters ← takeWhile fun c => c != ':' && c != ')'
      switchModes letters
      if ← accept ":" then return some (← groupBody body modes)
      else
        guard (!letters.isEmpty && (← accept ")"))
        return none
  else return some (← groupBody body modes)

/-! ## Patterns -/

/-- The pattern for one character. -/
def literal (c : Char) : Read Pattern := do
  guard !(← get).modes.anyCase
  return .one (.single c)

/-- A pattern without rounds or choices of its own, or nothing but a switch of modes. -/
def atom? (body : Read Pattern) : Read (Option Pattern) := do
  let modes := (← get).modes
  match ← next with
  | '.' => return some (.one (if modes.acrossLines then .all else .complement (.single '\n')))
  | '^' => return some (.border (if modes.perLine then .lineStart else .start))
  | '$' => return some (.border (if modes.perLine then .lineEnd else .finish))
  | '(' => group? body
  | '[' => do
    guard !modes.anyCase
    return some (.one (← charSet (← fuel)))
  | '\\' => do
    if ← accept "A" then return some (.border .start)
    else if ← accept "z" then return some (.border .finish)
    else return some (← literal (← escape))
  | c => do
    guard !("?*+\x7b".toList.contains c)
    return some (← literal c)

/-- A pattern with the signs for rounds behind it. -/
def repeated : Nat → Pattern → Read Pattern
  | 0, _ => failure
  | n + 1, p => do
    if ← accept "*" then repeated n (.many (← greedy) p)
    else if ← accept "+" then repeated n (.rounds (← greedy) p)
    else if ← accept "?" then repeated n (.optional (← greedy) p)
    else return p
where
  /-- Whether many rounds are preferred, by the sign that may follow. -/
  greedy : Read Bool := do return (← accept "?") == (← get).modes.fewFirst

/-- Patterns in a row, up to a bar, a closing parenthesis or the end. -/
def row (body : Read Pattern) : Nat → Read Pattern
  | 0 => failure
  | n + 1 => do
    match (← get).rest with
    | [] => return .empty
    | '|' :: _ => return .empty
    | ')' :: _ => return .empty
    | _ => do
      match ← atom? body with
      | none => row body n
      | some p => do
        let p ← repeated (← fuel) p
        return .sequence p (← row body n)

/-- Rows with bars between them. -/
def choices (body : Read Pattern) : Nat → Read Pattern
  | 0 => failure
  | n + 1 => do
    let p ← row body (← fuel)
    if ← accept "|" then return .choice p (← choices body n) else return p

/-- A pattern with at most so many groups around each other. -/
def pattern : Nat → Read Pattern
  | 0 => failure
  | depth + 1 => do choices (pattern depth) (← fuel)

end Read

/-- The pattern that a text writes down. -/
def ofWritten? (t : Text) : Option Pattern := do
  let (p, s) ← (Read.pattern (t.length + 1)).run ⟨t, .standard, []⟩
  guard s.rest.isEmpty
  return p

example : (ofWritten? "dev-[0-9]+".toList).map (·.covers "dev-001".toList) = some true := by
  decide +kernel

example : (ofWritten? "dev|dev-001".toList).map (·.covers "dev-001".toList) = some false := by
  decide +kernel

example : (ofWritten? "^(?:dev|ops)-.*?1$".toList).map (·.covers "dev-001".toList) = some true := by
  decide +kernel

example :
    ["(", "[", "*", "a|+", "\\d", "(?i)a"].all (fun t => (ofWritten? t.toList).isNone) = true := by
  decide +kernel

end Pattern

end ForgeQuery
