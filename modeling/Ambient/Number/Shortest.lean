/-!
# Shortest decimals of binary fractions

A positive binary fraction of 53 bits is `mantissa · 2 ^ exponent`.  `nearest?` is the fraction
closest to a quotient of natural numbers, of two equally close ones the one with the even mantissa.
`shortest` is the decimal with the fewest digits that `nearest?` takes back to the fraction, of
those the closest: with one digit, two digits and so on, the two neighbours of the fraction on the
decimal grid are tested against the interval of numbers that round to it.  All arithmetic is exact.
-/

namespace Ambient

/-- The positive number `mantissa · 2 ^ exponent`. -/
structure BinaryFraction where
  mantissa : Nat
  exponent : Int

/-- The least mantissa of 53 bits. -/
def leastMantissa : Nat := Nat.pow 2 52

/-- A quotient rounded to the nearest natural number, a half going to the even one. -/
def roundEven (num den : Nat) : Nat :=
  let q := num / den
  let r := 2 * (num % den)
  if r < den || (r = den && q % 2 = 0) then q else q + 1

/-- The quotient `num / den` divided by `base ^ e`, as numerator and denominator. -/
def overPower (base num den : Nat) (e : Int) : Nat × Nat :=
  if 0 ≤ e then (num, den * Nat.pow base e.toNat) else (num * Nat.pow base (-e).toNat, den)

/-! ### From a quotient to the fraction -/

/-- The exponent of the largest power of two that is at most `num / den`. -/
def binaryOrder (num den : Nat) : Int :=
  let k : Int := (num.log2 : Int) - den.log2
  let (a, b) := overPower 2 num den k
  if b ≤ a then k else k - 1

/-- The fraction nearest to `num / den`, if it is not beyond the largest one. -/
def BinaryFraction.nearest? (num den : Nat) : Option BinaryFraction :=
  let q := max (binaryOrder num den - 52) (-1074)
  let (a, b) := overPower 2 num den q
  let m := roundEven a b
  let (m, q) := if m = 2 * leastMantissa then (leastMantissa, q + 1) else (m, q)
  if q ≤ 971 then some ⟨m, q⟩ else none

/-! ### From the fraction to its decimal -/

/-- The exponent of the largest power of ten that is at most `num / den`. -/
def decimalOrder (num den : Nat) : Int :=
  if den ≤ num then ((Nat.toDigits 10 (num / den)).length : Int) - 1
  else
    let j := (Nat.toDigits 10 (den / num)).length
    if den ≤ num * Nat.pow 10 (j - 1) then 1 - (j : Int) else -(j : Int)

/-- The digits without the zeros at their end, which are counted in the exponent. -/
def withoutTrailingZeros : Nat → Nat → Int → Nat × Int
  | 0, digits, e => (digits, e)
  | n + 1, digits, e =>
    if digits ≠ 0 && digits % 10 = 0 then withoutTrailingZeros n (digits / 10) (e + 1)
    else (digits, e)

namespace BinaryFraction

/-- The decimal `digits · 10 ^ e` next to the fraction on the grid of `10 ^ e`, if one of the two
neighbours rounds to the fraction. -/
def onGrid? (x : BinaryFraction) (e : Int) : Option Nat :=
  let m := 4 * x.mantissa
  let below := if x.mantissa = leastMantissa && -1074 < x.exponent then 1 else 2
  let (num, den) := overPower 2 1 1 (2 - x.exponent)
  let (a, b) := overPower 10 num den e
  let inside (c : Nat) : Bool :=
    if x.mantissa % 2 = 0 then (m - below) * a ≤ c * b && c * b ≤ (m + 2) * a
    else (m - below) * a < c * b && c * b < (m + 2) * a
  let low := m * a / b
  let high := low + 1
  let distLow := m * a - low * b
  let distHigh := high * b - m * a
  match inside low, inside high with
  | true, true =>
    some (if distLow < distHigh || (distLow = distHigh && low % 2 = 0) then low else high)
  | true, false => some low
  | false, true => some high
  | false, false => none

/-- The shortest decimal that rounds to the fraction, as digits and a power of ten. -/
def shortest (x : BinaryFraction) : Nat × Int :=
  let (num, den) := overPower 2 x.mantissa 1 (-x.exponent)
  let order := decimalOrder num den
  let found := (List.range 17).findSome? fun n : Nat =>
    (x.onGrid? (order - n)).map fun digits => (digits, order - n)
  let (digits, e) := found.getD (x.mantissa, 0)
  withoutTrailingZeros 20 digits e

end BinaryFraction

end Ambient
