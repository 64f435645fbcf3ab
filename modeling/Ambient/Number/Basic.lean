import Ambient.Number.Shortest
import Ambient.Text.Basic

/-!
# Numbers of documents

A document writes whole numbers of any size, and other numbers in decimal, which stand for binary
fractions of double width.  The latter are kept as the shortest decimal of the fraction, so two
ways of writing one fraction are one value.
-/

namespace Ambient

/-- A number of double width, by its shortest decimal `digits · 10 ^ exponent`. -/
inductive Double
  | finite (negative : Bool) (digits : Nat) (exponent : Int)
  | infinite (negative : Bool)
  | undefined
deriving DecidableEq, Repr

/-- A number in a document. -/
inductive Number
  | whole (n : Int)
  | real (x : Double)
deriving DecidableEq, Repr

namespace Double

/-- The number of double width nearest to `digits · 10 ^ exponent`.  Exponents far outside the range
are settled without computing the power. -/
def ofDecimal (negative : Bool) (digits : Nat) (exponent : Int) : Double :=
  let size := ((Nat.toDigits 10 digits).length : Int) + exponent
  if digits = 0 || size < -400 then .finite negative 0 0
  else if 400 < size then .infinite negative
  else
    let (num, den) := overPower 10 digits 1 (-exponent)
    match BinaryFraction.nearest? num den with
    | none => .infinite negative
    | some x =>
      if x.mantissa = 0 then .finite negative 0 0
      else
        let (digits, exponent) := x.shortest
        .finite negative digits exponent

/-! ### Writing -/

/-- Digits with a point: positional while the point falls at most four places before the first
digit and at most sixteen after it, and with a power of ten of two or more digits otherwise. -/
def unsignedText (digits : Nat) (exponent : Int) : Text :=
  let ds := Text.ofNat digits
  let point : Int := ds.length + exponent
  if -4 < point && point ≤ 16 then
    if point ≤ 0 then "0." ++ List.replicate (-point).toNat '0' ++ ds
    else
      let n := point.toNat
      let ds := ds ++ List.replicate (n - ds.length) '0'
      ds.take n ++ "." ++ (if ds.length ≤ n then ['0'] else ds.drop n)
  else
    let power := point - 1
    let size := Text.ofNat power.natAbs
    ds.take 1 ++ (if ds.length ≤ 1 then [] else '.' :: ds.drop 1) ++ ['e']
      ++ [if power < 0 then '-' else '+'] ++ List.replicate (2 - size.length) '0' ++ size

/-- The text of a number, given the words for infinity and for an undefined number. -/
def text (infinity undefinedNumber : Text) : Double → Text
  | .finite negative digits exponent =>
    (if negative then ['-'] else []) ++ unsignedText digits exponent
  | .infinite negative => (if negative then ['-'] else []) ++ infinity
  | .undefined => undefinedNumber

end Double

namespace Number

/-- The text of a number, given the words for infinity and for an undefined number. -/
def text (infinity undefinedNumber : Text) : Number → Text
  | .whole n => Text.ofInt n
  | .real x => x.text infinity undefinedNumber

/-- Whether a number is zero. -/
def isZero : Number → Bool
  | .whole n => n = 0
  | .real (.finite _ digits _) => digits = 0
  | .real _ => false

end Number

end Ambient
