import ForgeQuery.Text.Blank

/-!
# Digits

Decimal and hexadecimal digits of natural numbers, as text and back. `valueOf_decimal` says that
the decimal digits of a number have that number as their value. `isNumber` tells which texts are
numbers in decimal notation.
-/

namespace ForgeQuery

namespace Text

/-- Whether a character is a decimal digit. -/
def isDecimal (c : Char) : Bool := '0' ≤ c && c ≤ '9'

/-- The value of a digit of base sixteen, in upper or lower case. -/
def hexValue? (c : Char) : Option Nat :=
  if '0' ≤ c ∧ c ≤ '9' then some (c.toNat - 48)
  else if 'a' ≤ c ∧ c ≤ 'f' then some (c.toNat - 87)
  else if 'A' ≤ c ∧ c ≤ 'F' then some (c.toNat - 55)
  else none

/-- The digit of a number below sixteen, letters in lower case. -/
def hexDigit (n : Nat) : Char :=
  if n < 10 then Char.ofNat (48 + n) else Char.ofNat (87 + n)

/-- The decimal digits of a number, without leading zeros. -/
def decimal (n : Nat) : Text :=
  if n < 10 then [Char.ofNat (48 + n)]
  else decimal (n / 10) ++ [Char.ofNat (48 + n % 10)]
termination_by n

/-- The number that a row of decimal digits stands for. -/
def valueOf (digits : Text) : Nat :=
  digits.foldl (fun n c => 10 * n + (c.toNat - 48)) 0

theorem valueOf_append_singleton (digits : Text) (c : Char) :
    valueOf (digits ++ [c]) = 10 * valueOf digits + (c.toNat - 48) := by
  simp [valueOf]

theorem toNat_digit {n : Nat} (h : n < 10) : (Char.ofNat (48 + n)).toNat - 48 = n := by
  have : n = 0 ∨ n = 1 ∨ n = 2 ∨ n = 3 ∨ n = 4 ∨ n = 5 ∨ n = 6 ∨ n = 7 ∨ n = 8 ∨ n = 9 := by
    omega
  rcases this with rfl | rfl | rfl | rfl | rfl | rfl | rfl | rfl | rfl | rfl <;> decide

/-- The digits of a number have that number as their value. -/
theorem valueOf_decimal (n : Nat) : valueOf (decimal n) = n := by
  induction n using Nat.strongRecOn with
  | ind n ih =>
    rw [decimal]
    split
    · next h =>
      have := toNat_digit h
      simpa [valueOf] using this
    · next h =>
      rw [valueOf_append_singleton, ih (n / 10) (by omega), toNat_digit (by omega)]
      omega

/-! ## Numbers in decimal notation -/

/-- The text without a sign in front of it. -/
def dropSign : Text → Text
  | '+' :: t => t
  | '-' :: t => t
  | t => t

/-- Whether a text is empty or a power of ten: the letter `e` in either case and an integer. -/
def isPower : Text → Bool
  | [] => true
  | e :: t =>
    let digits := dropSign t
    (e == 'e' || e == 'E') && !digits.isEmpty && digits.all isDecimal

/-- Whether a text is a number: a sign or none, digits with a point among them or none, and a power
of ten or none; or, in letters of either case, infinity or the word for no number. -/
def isNumber (t : Text) : Bool :=
  let t := dropSign t
  let whole := t.takeWhile isDecimal
  let (fraction, power) :=
    match t.dropWhile isDecimal with
    | '.' :: t => (t.takeWhile isDecimal, t.dropWhile isDecimal)
    | t => ([], t)
  (!(whole ++ fraction).isEmpty && isPower power)
    || (["inf", "infinity", "nan"].map String.toList).contains (t.map Char.toLower)

example : ["5", "-0.5", "+.5e3", "5.", "1E-7", "-Inf"].all (fun t => isNumber t.toList) = true := by
  decide +kernel

example : ["", "-", ".", "1e", "0x1", "dev-001"].any (fun t => isNumber t.toList) = false := by
  decide +kernel

end Text

end ForgeQuery
