import Stencil.Number.Numeral
import Stencil.Number.Shortest
import Stencil.Run.Fault

/-!
# `Stencil.Run.Duration` — durations in minutes and seconds

A duration below a minute is shown in seconds with one decimal place, a longer one in whole minutes
and seconds. A number of seconds is either an exact integer or a double; division by sixty goes by
the rules of the type. A negative duration is shown as zero.
-/

namespace Stencil

open Number

/-- A number of seconds. -/
inductive Duration where
  /-- A whole number. -/
  | whole (seconds : Int)
  /-- A double. -/
  | real (seconds : Double)
  deriving Repr, DecidableEq

namespace Duration

/-- The whole number of seconds that a text stands for. -/
def ofInteger (text : String) : Except Fault Duration :=
  match integer text.toList with
  | .ok n => .ok (.whole n)
  | .error f => .error (.numeral text f)

/-- The double that a text stands for as a number of seconds. -/
def ofDecimal (text : String) : Except Fault Duration :=
  match double? text.toList with
  | some d => .ok (.real d)
  | none => .error (.decimal text)

/-- Minutes and seconds. -/
def minutesText (minutes seconds : Nat) : String := toString minutes ++ "m " ++ toString seconds ++ "s"

/-- The text of a duration that is shown as zero. -/
def zeroText : String := tenthsText 0 ++ "s"

/-- The text of a whole number of seconds. -/
def wholeText (n : Nat) : String :=
  if n < 60 then tenthsText (10 * n) ++ "s" else minutesText (n / 60) (n % 60)

/-- The whole minutes of `num / den` seconds, as double division finds them: the remainder is exact, the rest
    divided by sixty is rounded and then cut. A quotient that fell short by more than a half is
    put right. -/
def realMinutes (num den : Nat) : Nat :=
  match Double.round false (num - num % (60 * den)) den with
  | .finite _ m e =>
    match Double.round false (Double.magnitudeNum m e) (Double.magnitudeDen e * 60) with
    | .finite _ m e =>
      let n := Double.magnitudeNum m e
      let d := Double.magnitudeDen e
      if d < 2 * (n % d) then n / d + 1 else n / d
    | _ => 0
  | _ => 0

/-- The text of a finite number of seconds that is not negative. -/
def realText (mantissa : Nat) (exponent : Int) : String :=
  let num := Double.magnitudeNum mantissa exponent
  let den := Double.magnitudeDen exponent
  let minutes := realMinutes num den
  let rest := num % (60 * den)
  if minutes = 0 then tenthsText (roundDiv (10 * rest) den) ++ "s" else minutesText minutes (rest / den)

/-- The text of a duration. Infinity and the value that is no number have none. -/
def text : Duration → Except Fault String
  | .whole n => .ok (if n < 0 then zeroText else wholeText n.toNat)
  | .real .nan => .error .noDuration
  | .real (.infinite negative) => if negative then .ok zeroText else .error .noDuration
  | .real (.finite negative m e) => .ok (if negative then zeroText else realText m e)

/-- Half a minute short of the next tenth. -/
example : (text (.real (.ofDecimal false 5996 (-2)))).toOption = some "60.0s" := by decide +kernel

/-- Whole minutes. -/
example : (text (.real (.ofDecimal false 652 (-1)))).toOption = some "1m 5s" := by decide +kernel

end Duration

end Stencil
