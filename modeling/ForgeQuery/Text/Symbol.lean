import ForgeQuery.Text.Blank

/-!
# Text that arrives as bytes

Bytes are read as `Symbol`s: the characters that they encode in UTF-8, and the bytes that belong to
no well-formed character, each on its own. A byte below `0x80` is always a character, so a reader
of symbols meets every bracket, quote and digit of its input whatever stands around it, and decides
for itself where a stray byte is an error.

* `Symbol.ofBytes` reads bytes, `Symbol.ofText` takes a text as it is.
* `Symbol.text?` gives the text back when there is no stray byte.
-/

namespace ForgeQuery

/-- A character, or a byte that is part of none. -/
inductive Symbol where
  /-- a character -/
  | char (c : Char)
  /-- a byte outside every well-formed character -/
  | stray (byte : UInt8)
  deriving DecidableEq

namespace Symbol

/-- The number of bytes that a symbol takes. -/
def size : Symbol → Nat
  | char c => c.utf8Size
  | stray _ => 1

/-! ## Reading UTF-8 -/

/-- The six low bits of a continuation byte. -/
def continuation? (b : UInt8) : Option Nat :=
  if 0x80 ≤ b.toNat ∧ b.toNat < 0xC0 then some (b.toNat - 0x80) else none

/-- The character at the front of some bytes, with the number of continuation bytes that belong to
it. Each length of the encoding has its own range of code points, and surrogates have none. -/
def decode? (lead : UInt8) (rest : List UInt8) : Option (Char × Nat) :=
  let b := lead.toNat
  if b < 0x80 then some (Char.ofNat b, 0)
  else if 0xC0 ≤ b ∧ b < 0xE0 then
    match rest with
    | b₁ :: _ => do
      let c₁ ← continuation? b₁
      let n := (b - 0xC0) * 64 + c₁
      if 0x80 ≤ n then some (Char.ofNat n, 1) else none
    | [] => none
  else if 0xE0 ≤ b ∧ b < 0xF0 then
    match rest with
    | b₁ :: b₂ :: _ => do
      let c₁ ← continuation? b₁
      let c₂ ← continuation? b₂
      let n := ((b - 0xE0) * 64 + c₁) * 64 + c₂
      if 0x800 ≤ n ∧ (n < 0xD800 ∨ 0xE000 ≤ n) then some (Char.ofNat n, 2) else none
    | _ => none
  else if 0xF0 ≤ b ∧ b < 0xF8 then
    match rest with
    | b₁ :: b₂ :: b₃ :: _ => do
      let c₁ ← continuation? b₁
      let c₂ ← continuation? b₂
      let c₃ ← continuation? b₃
      let n := (((b - 0xF0) * 64 + c₁) * 64 + c₂) * 64 + c₃
      if 0x10000 ≤ n ∧ n < 0x110000 then some (Char.ofNat n, 3) else none
    | _ => none
  else none

/-- The symbols that bytes stand for. -/
def ofBytes (bytes : List UInt8) : List Symbol :=
  match bytes with
  | [] => []
  | b :: rest =>
    match decode? b rest with
    | some (c, more) => char c :: ofBytes (rest.drop more)
    | none => stray b :: ofBytes rest
termination_by bytes.length
decreasing_by all_goals simp only [List.length_drop, List.length_cons]; omega

/-- The symbols of a text. -/
def ofText (t : Text) : List Symbol := t.map char

/-- The character that a symbol is. -/
def char? : Symbol → Option Char
  | char c => some c
  | stray _ => none

/-- The text that symbols make, unless there is a stray byte among them. -/
def text? (symbols : List Symbol) : Option Text := symbols.mapM char?

@[simp] theorem text?_ofText (t : Text) : text? (ofText t) = some t := by
  induction t with
  | nil => rfl
  | cons c t ih => simp_all [text?, ofText, char?]

end Symbol

end ForgeQuery
