import ForgeQuery.Text.Numeral

/-!
# Binary floating point and decimal text

The finite numbers of the 64-bit binary format, with the two conversions that exchange formats
need. Both work in exact natural number arithmetic.

* `Binary64.ofDecimal?` — the representable number nearest to `± digits · 10 ^ scale`, a tie going
  to the even mantissa; nothing when that lies beyond the largest finite number.
* `Binary64.shortest` — the fewest decimal digits that read back as the number, and of those the
  nearest to it.
-/

namespace ForgeQuery

/-- A finite number `± mantissa · 2 ^ exponent`. The mantissa is below `2 ^ 53`, and it is at least
`2 ^ 52` unless the exponent is the least one, `-1074`. -/
structure Binary64 where
  /-- whether the sign is a minus -/
  negative : Bool
  /-- the integer mantissa -/
  mantissa : Nat
  /-- the power of two that scales it -/
  exponent : Int
  deriving DecidableEq

namespace Binary64

/-- A power of two. -/
def twoTo (n : Nat) : Nat := Nat.pow 2 n

/-- A power of ten. -/
def tenTo (n : Nat) : Nat := Nat.pow 10 n

/-- The least exponent. -/
def leastExponent : Int := -1074

/-- The largest exponent of a finite number. -/
def largestExponent : Int := 971

/-- Zero, of either sign. -/
def zero (negative : Bool) : Binary64 := ⟨negative, 0, leastExponent⟩

/-! ## From decimal -/

/-- The quotient rounded to the nearest integer, a tie going to the even one. -/
def roundDiv (num den : Nat) : Nat :=
  let q := num / den
  let r := num % den
  if 2 * r < den then q
  else if den < 2 * r then q + 1
  else if q % 2 = 0 then q else q + 1

/-- The greatest `l` with `2 ^ l ≤ num / den`, for a positive quotient. -/
def logFloor (num den : Nat) : Int :=
  let l : Int := (num.log2 : Int) - den.log2
  if den * twoTo l.toNat ≤ num * twoTo (-l).toNat then l else l - 1

/-- The number nearest to the positive quotient `num / den`, if it is finite. -/
def ofRatio? (negative : Bool) (num den : Nat) : Option Binary64 :=
  let exponent := max (logFloor num den - 52) leastExponent
  let mantissa := roundDiv (num * twoTo (-exponent).toNat) (den * twoTo exponent.toNat)
  let rounded : Binary64 :=
    if mantissa = twoTo 53 then ⟨negative, twoTo 52, exponent + 1⟩ else ⟨negative, mantissa, exponent⟩
  if rounded.exponent ≤ largestExponent then some rounded else none

/-- The number nearest to `± digits · 10 ^ scale`, if it is finite. Magnitudes that are out of
range by far are settled by the position of the first digit alone. -/
def ofDecimal? (negative : Bool) (digits : Nat) (scale : Int) : Option Binary64 :=
  if digits = 0 then some (zero negative)
  else
    let position := ((Text.decimal digits).length : Int) + scale
    if 400 < position then none
    else if position < -400 then some (zero negative)
    else ofRatio? negative (digits * tenTo scale.toNat) (tenTo (-scale).toNat)

/-! ## To decimal -/

/-- The reals between `low / den` and `high / den`, the ends being included or not. -/
structure Interval where
  /-- the numerator of the lower end -/
  low : Nat
  /-- the numerator of the upper end -/
  high : Nat
  /-- the common denominator -/
  den : Nat
  /-- whether the ends belong to the interval -/
  closed : Bool

/-- Whether `digits · 10 ^ scale` lies in the interval. -/
def Interval.holds (i : Interval) (digits : Nat) (scale : Int) : Bool :=
  let point := digits * tenTo scale.toNat * i.den
  let unit := tenTo (-scale).toNat
  if i.closed then i.low * unit ≤ point && point ≤ i.high * unit
  else i.low * unit < point && point < i.high * unit

/-- The reals that round to a positive number. -/
def interval (x : Binary64) : Interval :=
  let quarter := x.exponent - 2
  let factor := twoTo quarter.toNat
  let step := if x.mantissa = twoTo 52 ∧ leastExponent < x.exponent then 1 else 2
  { low := (4 * x.mantissa - step) * factor
    high := (4 * x.mantissa + 2) * factor
    den := twoTo (-quarter).toNat
    closed := x.mantissa % 2 == 0 }

/-- The number of decimal digits before the point of `num / den`; for a quotient below one, less
the zeros behind the point. -/
def decimalPosition (num den : Nat) : Int :=
  if den ≤ num then (Text.decimal (num / den)).length
  else 1 - ((Text.decimal (den / num)).length : Int)

/-- The decimal of the grid `10 ^ scale` that lies in the interval and nearest to `num / den`, of
two equally near ones the even. -/
def nearestOn? (i : Interval) (num den : Nat) (scale : Int) : Option Nat :=
  let unit := tenTo (-scale).toNat
  let grid := den * tenTo scale.toNat
  let below := num * unit / grid
  let rest := num * unit % grid
  match i.holds below scale, i.holds (below + 1) scale with
  | true, true =>
    if 2 * rest < grid then some below
    else if grid < 2 * rest then some (below + 1)
    else if below % 2 = 0 then some below else some (below + 1)
  | true, false => some below
  | false, true => some (below + 1)
  | false, false => none

/-- Digits and scale without trailing zeros, `fuel` of them at most. -/
def dropZeros : Nat → Nat → Int → Nat × Int
  | 0, digits, scale => (digits, scale)
  | fuel + 1, digits, scale =>
    if digits ≠ 0 ∧ digits % 10 = 0 then dropZeros fuel (digits / 10) (scale + 1)
    else (digits, scale)

/-- The digits and the scale of the shortest decimal that reads back as the magnitude of the
number; seventeen digits always do. -/
def shortest (x : Binary64) : Nat × Int :=
  if x.mantissa = 0 then (0, 0)
  else
    let num := x.mantissa * twoTo x.exponent.toNat
    let den := twoTo (-x.exponent).toNat
    let position := decimalPosition num den
    let hit := (List.range 17).findSome? fun n =>
      let scale := position - (n + 1 : Nat)
      (nearestOn? x.interval num den scale).map fun digits => (digits, scale)
    match hit with
    | some (digits, scale) => dropZeros 17 digits scale
    | none => (0, 0)

end Binary64

end ForgeQuery
