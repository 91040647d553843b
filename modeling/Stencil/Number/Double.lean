import Stencil.Number.Rounding

/-!
# `Stencil.Number.Double` — binary floating-point numbers of double precision

## Contents
- **Values.** `Double` holds an exact value `± mantissa · 2 ^ exponent`, an infinity or the number
  that is none. The mantissa has at most 53 bits, and fewer only at the least exponent.
- **Rounding.** `Double.round` is the double nearest to a quotient of two natural numbers, and
  `Double.ofDecimal` the one nearest to a decimal numeral; beyond the largest double lies infinity.
- **Arithmetic.** Sum, difference, product and quotient are the exact results, rounded.

All of it is exact arithmetic on natural numbers and integers.
-/

namespace Stencil.Number

/-- A floating-point number of double precision. -/
inductive Double where
  /-- The value that is no number. -/
  | nan
  /-- Infinity, or negative infinity. -/
  | infinite (negative : Bool)
  /-- The value `mantissa · 2 ^ exponent`, or its negative; zero has both signs. -/
  | finite (negative : Bool) (mantissa : Nat) (exponent : Int)
  deriving Repr, DecidableEq, Inhabited

namespace Double

/-- The least exponent. -/
def minExponent : Int := -1074

/-- The greatest exponent. -/
def maxExponent : Int := 971

/-- The least mantissa of a value that has all its digits. -/
def leastNormal : Nat := 0x10000000000000

/-- Zero, with a sign. -/
def zero (negative : Bool) : Double := .finite negative 0 minExponent

/-! ## Rounding -/

/-- Numerator of `n · base ^ k` as a fraction. -/
def scaleNum (base n : Nat) (k : Int) : Nat := n * Nat.pow base k.toNat

/-- Denominator of `n · base ^ k` as a fraction. -/
def scaleDen (base : Nat) (k : Int) : Nat := Nat.pow base (-k).toNat

/-- The greatest `k` with `2 ^ k ≤ num / den`, for positive `num` and `den`. -/
def floorLog2 (num den : Nat) : Int :=
  let k : Int := (num.log2 : Int) - (den.log2 : Int)
  if scaleNum 2 den k ≤ num * scaleDen 2 k then k else k - 1

/-- The double nearest to `num / den`, with the even mantissa of two equally near. -/
def round (negative : Bool) (num den : Nat) : Double :=
  if num = 0 then zero negative
  else
    let exponent := max (floorLog2 num den - 52) minExponent
    let mantissa := roundDiv (num * scaleDen 2 exponent) (scaleNum 2 den exponent)
    let (mantissa, exponent) :=
      if mantissa = 2 * leastNormal then (leastNormal, exponent + 1) else (mantissa, exponent)
    if maxExponent < exponent then .infinite negative else .finite negative mantissa exponent

/-- The double nearest to `digits · 10 ^ exponent`. A numeral far beyond the range of the doubles is not
    worked out. -/
def ofDecimal (negative : Bool) (digits : Nat) (exponent : Int) : Double :=
  let size : Int := (Nat.toDigits 10 digits).length
  if digits = 0 then zero negative
  else if 400 < exponent + size then .infinite negative
  else if exponent + size < -400 then zero negative
  else round negative (scaleNum 10 digits exponent) (scaleDen 10 exponent)

/-- The double nearest to an integer. -/
def ofInt (n : Int) : Double := round (decide (n < 0)) n.natAbs 1

/-! ## Exact values -/

/-- Numerator of the magnitude of a finite value. -/
def magnitudeNum (mantissa : Nat) (exponent : Int) : Nat := scaleNum 2 mantissa exponent

/-- Denominator of the magnitude of a finite value. -/
def magnitudeDen (exponent : Int) : Nat := scaleDen 2 exponent

/-- The integer that a finite value is, if it is one. -/
def toInt? : Double → Option Int
  | .finite negative mantissa exponent =>
    let num := magnitudeNum mantissa exponent
    let den := magnitudeDen exponent
    if num % den = 0 then some (if negative then -(num / den : Nat) else (num / den : Nat)) else none
  | _ => none

/-- The same value with the other sign. -/
def neg : Double → Double
  | .nan => .nan
  | .infinite negative => .infinite (!negative)
  | .finite negative mantissa exponent => .finite (!negative) mantissa exponent

/-! ## Arithmetic -/

/-- The sum of two finite values as a signed fraction, rounded; a zero sum is negative only if both
    terms are. -/
def add : Double → Double → Double
  | .nan, _ => .nan
  | _, .nan => .nan
  | .infinite s, .infinite t => if s = t then .infinite s else .nan
  | .infinite s, _ => .infinite s
  | _, .infinite t => .infinite t
  | .finite s m e, .finite t n f =>
    let den := magnitudeDen e * magnitudeDen f
    let a : Int := magnitudeNum m e * magnitudeDen f
    let b : Int := magnitudeNum n f * magnitudeDen e
    let total := (if s then -a else a) + (if t then -b else b)
    if total = 0 then zero (s && t) else round (decide (total < 0)) total.natAbs den

/-- The product of two values, rounded. -/
def mul : Double → Double → Double
  | .nan, _ => .nan
  | _, .nan => .nan
  | .infinite s, .infinite t => .infinite (s != t)
  | .infinite s, .finite t n _ => if n = 0 then .nan else .infinite (s != t)
  | .finite s m _, .infinite t => if m = 0 then .nan else .infinite (s != t)
  | .finite s m e, .finite t n f =>
    round (s != t) (magnitudeNum m e * magnitudeNum n f) (magnitudeDen e * magnitudeDen f)

/-- Whether two values are equal as numbers: both zeros are, and the value that is no number equals
    nothing. -/
def numEq : Double → Double → Bool
  | .finite s m e, .finite t n f => (m == 0 && n == 0) || (s == t && m == n && e == f)
  | .infinite s, .infinite t => s == t
  | _, _ => false

/-- A tenth is not a double; the nearest one is. -/
example : ofDecimal false 1 (-1) = .finite false 7205759403792794 (-56) := by decide +kernel

/-- The largest double, and the first power of ten beyond it. -/
example : ofDecimal false 17976931348623157 292 = .finite false (2 * leastNormal - 1) maxExponent
    ∧ ofDecimal false 1 309 = .infinite false := by decide +kernel

/-- The least positive double. -/
example : ofDecimal false 5 (-324) = .finite false 1 (-1074) := by decide +kernel

end Double

end Stencil.Number
