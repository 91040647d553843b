import Stencil.Number.Double

/-!
# `Stencil.Number.Shortest` — the shortest decimal that reads back

A double is written with the fewest significant digits that still name it and no other double; of
several such decimals it is the one nearest to its exact value. `shortest` finds the digits,
`Layout` says how they are laid out, and `Double.text` does both.

The decimals that name a double are those in the interval of reals that round to it. On the grid of
`n`-digit decimals only the two neighbours of the value need to be looked at.
-/

namespace Stencil.Number

/-- The decimal `digits · 10 ^ exponent`. -/
structure Decimal where
  /-- The significant digits. -/
  digits : Nat
  /-- The power of ten of the last digit. -/
  exponent : Int
  deriving Repr, DecidableEq

/-- The greatest `k` with `10 ^ k ≤ num / den`, for positive `num` and `den`. -/
def floorLog10 (num den : Nat) : Int :=
  let k : Int := ((Nat.toDigits 10 num).length : Int) - ((Nat.toDigits 10 den).length : Int)
  if Double.scaleNum 10 den k ≤ num * Double.scaleDen 10 k then k else k - 1

/-- The reals that round to one double: those between `low / den` and `high / den`, the ends included
    if `closed`; the double itself is `value / den`. -/
structure Neighbourhood where
  /-- Numerator of the lower end. -/
  low : Nat
  /-- Numerator of the value. -/
  value : Nat
  /-- Numerator of the upper end. -/
  high : Nat
  /-- Common denominator. -/
  den : Nat
  /-- Whether the ends belong to it. -/
  closed : Bool

/-- The reals that round to `mantissa · 2 ^ exponent`. They reach half a unit to both sides, but only a
    quarter downwards at the start of a binade. -/
def neighbourhood (mantissa : Nat) (exponent : Int) : Neighbourhood :=
  let unit := Double.scaleNum 2 1 (exponent - 2)
  let below := if mantissa = Double.leastNormal ∧ exponent ≠ Double.minExponent then 1 else 2
  { low := (4 * mantissa - below) * unit
    value := 4 * mantissa * unit
    high := (4 * mantissa + 2) * unit
    den := Double.scaleDen 2 (exponent - 2)
    closed := mantissa % 2 = 0 }

/-- Whether the decimal is one of these reals. -/
def Neighbourhood.holds (r : Neighbourhood) (d : Decimal) : Bool :=
  let num := Double.scaleNum 10 d.digits d.exponent * r.den
  let unit := Double.scaleDen 10 d.exponent
  if r.closed then r.low * unit ≤ num && num ≤ r.high * unit
  else r.low * unit < num && num < r.high * unit

/-- The decimal nearest to the value on the grid of multiples of `10 ^ exponent`, and the other
    neighbour of the value there. -/
def Neighbourhood.gridPoints (r : Neighbourhood) (exponent : Int) : List Decimal :=
  let num := r.value * Double.scaleDen 10 exponent
  let den := Double.scaleNum 10 r.den exponent
  let near := roundDiv num den
  let floor := num / den
  let far := if near = floor then floor + 1 else floor
  [⟨near, exponent⟩, ⟨far, exponent⟩]

/-- The first hit on the grids of one digit more at each step. -/
def Neighbourhood.search (r : Neighbourhood) : Nat → Int → Option Decimal
  | 0, _ => none
  | steps + 1, exponent =>
    match (r.gridPoints exponent).find? r.holds with
    | some d => some d
    | none => r.search steps (exponent - 1)

/-- The shortest decimal that names the double `mantissa · 2 ^ exponent`. Seventeen digits always
    suffice. -/
def shortest (mantissa : Nat) (exponent : Int) : Decimal :=
  if mantissa = 0 then ⟨0, 0⟩
  else
    let r := neighbourhood mantissa exponent
    match r.search 17 (floorLog10 r.value r.den) with
    | some d => d
    | none => ⟨Double.magnitudeNum mantissa exponent / Double.magnitudeDen exponent, 0⟩

/-! ## Layout -/

/-- How the digits of a number are laid out. -/
structure Layout where
  /-- The least power of ten of the first digit that is written positionally. -/
  leastPositional : Int
  /-- The first power of ten that is no longer written positionally. -/
  firstScientific : Int
  /-- The least number of digits of an exponent. -/
  exponentDigits : Nat
  /-- What stands for infinity. -/
  infinity : String
  /-- What stands for the value that is no number. -/
  nan : String

/-- Positional from `0.0001` to below `10 ^ 16`, always with a point; exponents have a sign and two
    digits. -/
def plainLayout : Layout := ⟨-4, 16, 2, "inf", "nan"⟩

/-- The layout of JSON texts, which differs in the names of the values that are no numerals. -/
def jsonLayout : Layout := { plainLayout with infinity := "Infinity", nan := "NaN" }

/-- Zeros on the left up to a width. -/
def padLeft (width : Nat) (cs : List Char) : List Char :=
  List.replicate (width - cs.length) '0' ++ cs

/-- Digits with a point after the first `whole` of them. -/
def positional (digits : List Char) (whole : Int) : List Char :=
  if whole ≤ 0 then '0' :: '.' :: (List.replicate (-whole).toNat '0' ++ digits)
  else
    let w := whole.toNat
    let front := digits.take w ++ List.replicate (w - digits.length) '0'
    let back := digits.drop w
    front ++ '.' :: (if back.isEmpty then ['0'] else back)

/-- One digit before the point and a power of ten behind. -/
def scientific (layout : Layout) (digits : List Char) (power : Int) : List Char :=
  let fraction := digits.drop 1
  let sign := if power < 0 then '-' else '+'
  digits.take 1 ++ (if fraction.isEmpty then [] else '.' :: fraction) ++ 'e' :: sign
    :: padLeft layout.exponentDigits (Nat.toDigits 10 power.natAbs)

/-- The magnitude of a decimal, laid out. -/
def Layout.magnitude (layout : Layout) (d : Decimal) : List Char :=
  let all := Nat.toDigits 10 d.digits
  let digits := if d.digits = 0 then ['0'] else (all.reverse.dropWhile (· == '0')).reverse
  let power : Int := d.exponent + (all.length : Int) - 1
  if layout.leastPositional ≤ power ∧ power < layout.firstScientific then positional digits (power + 1)
  else scientific layout digits power

/-- The text of a double. -/
def Double.text (layout : Layout) : Double → String
  | .nan => layout.nan
  | .infinite negative => if negative then "-" ++ layout.infinity else layout.infinity
  | .finite negative mantissa exponent =>
    let digits := layout.magnitude (shortest mantissa exponent)
    String.ofList (if negative then '-' :: digits else digits)

/-! ## Fixed places -/

/-- A number of tenths with a point before its last digit. -/
def tenthsText (n : Nat) : String := toString (n / 10) ++ "." ++ toString (n % 10)

end Stencil.Number
