import ForgeQuery.Json.Basic
import ForgeQuery.Text.Symbol

/-!
# Reading JSON

Readers take symbols off the front of an input and stop at the first fault from left to right.
There are three faults: the input is malformed, it ends too early, or it is well formed so far but
not of the wanted shape. Since an expectation is checked as soon as a value begins, a fault of
shape wins over whatever is wrong further on.

* `readValue` reads any value. Containers may be nested as deep as its first argument says; for a
  whole input that is `nestingLimit`.
* `skipValue` steps over a value that nobody wants. It allows any depth, numbers of any magnitude,
  and strings with stray bytes or unpaired surrogates.
* `mismatch` is the fault of a value that is not of the wanted shape.

Loops over items and members count down the length of their input, which bounds the number of
rounds.
-/

namespace ForgeQuery

/-- What can be wrong with an input. -/
inductive Fault where
  /-- no text of the format starts like this -/
  | malformed
  /-- the input ends before the value does -/
  | truncated
  /-- the value is not of the wanted shape -/
  | mismatched
  deriving DecidableEq

namespace Json

/-- What is left to read. -/
abbrev Input : Type := List Symbol

/-- The deepest nesting of containers in a value that is kept. -/
def nestingLimit : Nat := 127

/-! ## Blanks and literal words -/

/-- The blanks of the format. -/
def isBlank (s : Symbol) : Bool :=
  s == .char ' ' || s == .char '\n' || s == .char '\t' || s == .char '\r'

/-- The input behind the blanks at its front. -/
def skipBlanks (s : Input) : Input := s.dropWhile isBlank

/-- The rest of a literal word whose first letter has been read. -/
def readWord : Text → Input → Except Fault Input
  | [], s => .ok s
  | _ :: _, [] => .error .truncated
  | w :: word, x :: s => if x = .char w then readWord word s else .error .malformed

/-! ## Numbers -/

/-- A number as it is written. -/
structure Numeral where
  /-- whether a minus stands in front -/
  negative : Bool
  /-- the digits before the point -/
  whole : Text
  /-- the digits behind the point, if there is one -/
  fraction : Option Text
  /-- the sign and the digits of the power of ten, if there is one -/
  power : Option (Bool × Text)

/-- The decimal digits at the front. -/
def readDigits : Input → Text × Input
  | .char c :: s =>
    if Text.isDecimal c then ((readDigits s).map (c :: ·) id) else ([], .char c :: s)
  | s => ([], s)

/-- The digits at the front, of which there has to be one; `missing` is the fault when the input
ends instead. -/
def readSomeDigits (missing : Fault) (s : Input) : Except Fault (Text × Input) :=
  match readDigits s with
  | ([], []) => .error missing
  | ([], _) => .error .malformed
  | (digits, rest) => .ok (digits, rest)

/-- The digits before the point. A zero stands alone. -/
def readWhole (missing : Fault) (s : Input) : Except Fault (Text × Input) := do
  let (digits, rest) ← readSomeDigits missing s
  match digits with
  | '0' :: _ :: _ => .error .malformed
  | _ => .ok (digits, rest)

/-- The point and the digits behind it, if there is a point. -/
def readFraction (missing : Fault) : Input → Except Fault (Option Text × Input)
  | .char '.' :: s => do
    let (digits, rest) ← readSomeDigits missing s
    .ok (some digits, rest)
  | s => .ok (none, s)

/-- Whether a power of ten is negative, by the optional sign in front of its digits. -/
def readSign : Input → Bool × Input
  | .char '-' :: s => (true, s)
  | .char '+' :: s => (false, s)
  | s => (false, s)

/-- The power of ten, if there is one. -/
def readPower (missing : Fault) (s : Input) : Except Fault (Option (Bool × Text) × Input) :=
  match s with
  | .char c :: s =>
    if c = 'e' ∨ c = 'E' then do
      let (negative, s) := readSign s
      let (digits, rest) ← readSomeDigits missing s
      .ok (some (negative, digits), rest)
    else .ok (none, .char c :: s)
  | s => .ok (none, s)

/-- A number as it is written, from its minus or first digit on. -/
def readNumeral (missing : Fault) (s : Input) : Except Fault (Numeral × Input) := do
  let (negative, s) : Bool × Input :=
    match s with
    | .char '-' :: rest => (true, rest)
    | s => (false, s)
  let (whole, s) ← readWhole missing s
  let (fraction, s) ← readFraction missing s
  let (power, s) ← readPower missing s
  .ok (⟨negative, whole, fraction, power⟩, s)

/-- The integers that are held exactly: those of 64 bits, with or without a sign. -/
def isExact (n : Int) : Bool := Int64.minValue.toInt ≤ n && n < (UInt64.size : Int)

/-- The number that a numeral stands for. Integers of 64 bits are held exactly, all but a negative
zero; anything else is the nearest floating point number, and there is none beyond the finite
ones. -/
def Numeral.value? (n : Numeral) : Option Number :=
  let magnitude : Int := Text.valueOf n.whole
  let exact := if n.negative then -magnitude else magnitude
  match n.fraction, n.power with
  | none, none =>
    if isExact exact && !(n.negative && magnitude == 0) then some (.integer exact)
    else (Binary64.ofDecimal? n.negative magnitude.toNat 0).map .float
  | fraction, power =>
    let places := fraction.getD []
    let scale : Int :=
      match power with
      | none => 0
      | some (true, digits) => -(Text.valueOf digits : Int)
      | some (false, digits) => Text.valueOf digits
    (Binary64.ofDecimal? n.negative (Text.valueOf (n.whole ++ places))
      (scale - places.length)).map .float

/-- A number, from its minus or first digit on. -/
def readNumber (s : Input) : Except Fault (Number × Input) := do
  let (numeral, rest) ← readNumeral .truncated s
  match numeral.value? with
  | some n => .ok (n, rest)
  | none => .error .malformed

/-! ## Strings -/

/-- What the symbols read so far of a string leave open. -/
inductive Pending where
  /-- nothing: the next symbol stands for itself -/
  | nothing
  /-- a backslash has been read -/
  | escape
  /-- hexadecimal digits are due; a high surrogate may have gone before -/
  | hex (high : Option Nat) (missing : Nat) (value : Nat)
  /-- a high surrogate has been read, and the backslash of a low one is due -/
  | low (high : Nat)
  /-- a high surrogate and a backslash have been read -/
  | lowMark (high : Nat)

/-- The character of a one-letter escape. -/
def escaped? (c : Char) : Option Char :=
  if c = '"' ∨ c = '\\' ∨ c = '/' then some c
  else if c = 'b' then some '\x08'
  else if c = 'f' then some '\x0c'
  else if c = 'n' then some '\n'
  else if c = 'r' then some '\r'
  else if c = 't' then some '\t'
  else none

/-- Whether at least `n` bytes are left. -/
def hasBytes (n : Nat) (s : Input) : Bool := n ≤ s.foldl (fun bytes x => bytes + x.size) 0

/-- The fault of a symbol that is no hexadecimal digit while `missing` of four are due: the four
bytes are looked at together, so it matters first whether they are there. -/
def hexFault (missing : Nat) (s : Input) : Fault :=
  if hasBytes missing s then .malformed else .truncated

/-- What four hexadecimal digits mean: a character, the high half of a pair that is then due, or an
unpaired surrogate, which is refused. -/
def readUnit (high : Option Nat) (value : Nat) : Except Fault (Pending × Option Char) :=
  match high with
  | some h =>
    if 0xDC00 ≤ value ∧ value < 0xE000 then
      .ok (.nothing, some (Char.ofNat ((h - 0xD800) * 0x400 + (value - 0xDC00) + 0x10000)))
    else .error .malformed
  | none =>
    if 0xD800 ≤ value ∧ value < 0xDC00 then .ok (.low value, none)
    else if 0xDC00 ≤ value ∧ value < 0xE000 then .error .malformed
    else .ok (.nothing, some (Char.ofNat value))

/-- The rest of a string behind its opening quote: its characters and the input behind its closing
quote. A stray byte is noticed at the closing quote. -/
def readString (pending : Pending) (clean : Bool) : Input → Except Fault (Text × Input)
  | [] => .error .truncated
  | x :: s =>
    match pending, x with
    | .nothing, .char c =>
      if c = '"' then if clean then .ok ([], s) else .error .malformed
      else if c = '\\' then readString .escape clean s
      else if c.toNat < 0x20 then .error .malformed
      else (readString .nothing clean s).map fun r => (c :: r.1, r.2)
    | .nothing, .stray _ => readString .nothing false s
    | .escape, .char c =>
      if c = 'u' then readString (.hex none 4 0) clean s
      else
        match escaped? c with
        | some d => (readString .nothing clean s).map fun r => (d :: r.1, r.2)
        | none => .error .malformed
    | .hex high missing value, .char c =>
      match Text.hexValue? c with
      | none => .error (hexFault missing (x :: s))
      | some d =>
        if missing ≤ 1 then
          match readUnit high (16 * value + d) with
          | .error fault => .error fault
          | .ok (pending, none) => readString pending clean s
          | .ok (pending, some c) =>
            (readString pending clean s).map fun r => (c :: r.1, r.2)
        else readString (.hex high (missing - 1) (16 * value + d)) clean s
    | .hex _ missing _, .stray _ => .error (hexFault missing (x :: s))
    | .low high, .char c => if c = '\\' then readString (.lowMark high) clean s else .error .malformed
    | .lowMark high, .char c =>
      if c = 'u' then readString (.hex (some high) 4 0) clean s else .error .malformed
    | _, .stray _ => .error .malformed

/-- A string behind its opening quote. -/
def readText (s : Input) : Except Fault (String × Input) :=
  (readString .nothing true s).map fun r => (String.ofList r.1, r.2)

/-- Step over the rest of a string behind its opening quote. Escapes have to be well formed, but
surrogates need no partner and bytes no character. -/
def skipString (pending : Pending) : Input → Except Fault Input
  | [] => .error .truncated
  | x :: s =>
    match pending, x with
    | .nothing, .char c =>
      if c = '"' then .ok s
      else if c = '\\' then skipString .escape s
      else if c.toNat < 0x20 then .error .malformed
      else skipString .nothing s
    | .nothing, .stray _ => skipString .nothing s
    | .escape, .char c =>
      if c = 'u' then skipString (.hex none 4 0) s
      else if (escaped? c).isSome then skipString .nothing s
      else .error .malformed
    | .hex high missing value, .char c =>
      match Text.hexValue? c with
      | none => .error (hexFault missing (x :: s))
      | some d =>
        if missing ≤ 1 then skipString .nothing s
        else skipString (.hex high (missing - 1) (16 * value + d)) s
    | .hex _ missing _, .stray _ => .error (hexFault missing (x :: s))
    | _, _ => .error .malformed

/-! ## Arrays and objects -/

/-- The items of an array from its first item on, with its closing bracket. -/
def readItems {α : Type} (item : Input → Except Fault (α × Input)) :
    Nat → Input → Except Fault (List α × Input)
  | 0, _ => .error .truncated
  | n + 1, s => do
    let (x, s) ← item s
    match skipBlanks s with
    | [] => .error .truncated
    | .char ']' :: s => .ok ([x], s)
    | .char ',' :: s =>
      match skipBlanks s with
      | .char ']' :: _ => .error .malformed
      | s => do
        let (xs, s) ← readItems item n s
        .ok (x :: xs, s)
    | _ => .error .malformed

/-- An array behind its opening bracket. -/
def readArray {α : Type} (item : Input → Except Fault (α × Input)) (s : Input) :
    Except Fault (List α × Input) :=
  match skipBlanks s with
  | .char ']' :: s => .ok ([], s)
  | s => readItems item s.length s

/-- The colon behind a name. -/
def readColon (s : Input) : Except Fault Input :=
  match skipBlanks s with
  | [] => .error .truncated
  | .char ':' :: s => .ok s
  | _ => .error .malformed

/-- The members of an object from the quote of the first name on, with its closing brace. The
function `member` is called with what the members so far have come to and the name just read, and
reads on from the colon. -/
def readMembers {σ : Type} (member : σ → String → Input → Except Fault (σ × Input)) :
    Nat → σ → Input → Except Fault (σ × Input)
  | 0, _, _ => .error .truncated
  | n + 1, sofar, s =>
    match s with
    | [] => .error .truncated
    | .char '"' :: s => do
      let (name, s) ← readText s
      let (sofar, s) ← member sofar name s
      match skipBlanks s with
      | [] => .error .truncated
      | .char '}' :: s => .ok (sofar, s)
      | .char ',' :: s => readMembers member n sofar (skipBlanks s)
      | _ => .error .malformed
    | _ => .error .malformed

/-- An object behind its opening brace. -/
def readObject {σ : Type} (member : σ → String → Input → Except Fault (σ × Input)) (start : σ)
    (s : Input) : Except Fault (σ × Input) :=
  match skipBlanks s with
  | .char '}' :: s => .ok (start, s)
  | s => readMembers member (s.length + 1) start s

/-! ## Values -/

/-- Whether a number starts with this character. -/
def startsNumber (c : Char) : Bool := c == '-' || Text.isDecimal c

/-- A member of an object that is kept whole. A repeated name keeps its place and takes the new
value. -/
def keepMember (value : Input → Except Fault (Json × Input)) (o : Object) (name : String)
    (s : Input) : Except Fault (Object × Input) := do
  let s ← readColon s
  let (v, s) ← value s
  .ok (o.insert name v, s)

/-- A value with at most `depth` containers around each other. -/
def readValue : Nat → Input → Except Fault (Json × Input)
  | depth, s =>
    match skipBlanks s with
    | [] => .error .truncated
    | .char 'n' :: s => (readWord ['u', 'l', 'l'] s).map fun s => (.null, s)
    | .char 't' :: s => (readWord ['r', 'u', 'e'] s).map fun s => (.bool true, s)
    | .char 'f' :: s => (readWord ['a', 'l', 's', 'e'] s).map fun s => (.bool false, s)
    | .char '"' :: s => (readText s).map fun r => (.string r.1, r.2)
    | .char '[' :: s =>
      match depth with
      | 0 => .error .malformed
      | depth + 1 => (readArray (readValue depth) s).map fun r => (.array r.1, r.2)
    | .char '{' :: s =>
      match depth with
      | 0 => .error .malformed
      | depth + 1 =>
        (readObject (keepMember (readValue depth)) ∅ s).map fun r => (ofObject r.1, r.2)
    | .char c :: s =>
      if startsNumber c then (readNumber (.char c :: s)).map fun r => (.number r.1, r.2)
      else .error .malformed
    | .stray _ :: _ => .error .malformed

/-- Step over a value with at most `depth` containers around each other. -/
def skipNested : Nat → Input → Except Fault Input
  | depth, s =>
    match skipBlanks s with
    | [] => .error .truncated
    | .char 'n' :: s => readWord ['u', 'l', 'l'] s
    | .char 't' :: s => readWord ['r', 'u', 'e'] s
    | .char 'f' :: s => readWord ['a', 'l', 's', 'e'] s
    | .char '"' :: s => skipString .nothing s
    | .char '[' :: s =>
      match depth with
      | 0 => .error .malformed
      | depth + 1 =>
        (readArray (fun s => (skipNested depth s).map fun s => ((), s)) s).map Prod.snd
    | .char '{' :: s =>
      match depth with
      | 0 => .error .malformed
      | depth + 1 => do
        match skipBlanks s with
        | .char '}' :: s => .ok s
        | s => skipMembers (skipNested depth) (s.length + 1) s
    | .char c :: s =>
      if startsNumber c then (readNumeral .malformed (.char c :: s)).map Prod.snd
      else .error .malformed
    | .stray _ :: _ => .error .malformed
where
  /-- Step over members from the quote of the first name on, with the closing brace. -/
  skipMembers (value : Input → Except Fault Input) : Nat → Input → Except Fault Input
    | 0, _ => .error .truncated
    | n + 1, s =>
      match s with
      | [] => .error .truncated
      | .char '"' :: s => do
        let s ← skipString .nothing s
        let s ← readColon s
        let s ← value s
        match skipBlanks s with
        | [] => .error .truncated
        | .char '}' :: s => .ok s
        | .char ',' :: s => skipMembers value n (skipBlanks s)
        | _ => .error .malformed
      | _ => .error .malformed

/-- Step over a value of any depth. -/
def skipValue (s : Input) : Except Fault Input := skipNested s.length s

/-- The fault of the value at the front when another shape is wanted. A scalar is read to its end
first, and what is wrong inside it wins. -/
def mismatch (s : Input) : Fault :=
  match skipBlanks s with
  | [] => .truncated
  | .char '[' :: _ => .mismatched
  | .char '{' :: _ => .mismatched
  | s =>
    match readValue 0 s with
    | .ok _ => .mismatched
    | .error fault => fault

/-- Nothing but blanks may follow a whole input. -/
def readEnd (s : Input) : Except Fault Unit :=
  match skipBlanks s with
  | [] => .ok ()
  | _ => .error .malformed

/-- Read a whole input with a reader of a value. -/
def readWith {α : Type} (value : Input → Except Fault (α × Input)) (s : Input) :
    Except Fault α := do
  let (v, s) ← value s
  readEnd s
  .ok v

/-- Read a whole input as one value. -/
def read (s : Input) : Except Fault Json := readWith (readValue nestingLimit) s

/-- Read an object whose containers may be nested as deep as `depth`. -/
def readObjectValue (depth : Nat) (s : Input) : Except Fault (Object × Input) :=
  match skipBlanks s, depth with
  | .char '{' :: s, depth + 1 => readObject (keepMember (readValue depth)) ∅ s
  | .char '{' :: _, 0 => .error .malformed
  | s, _ => .error (mismatch s)

end Json

end ForgeQuery
