import Stencil.Text.Digit
import Stencil.Number.Shortest
import Stencil.Yaml.Fault

/-!
# `Stencil.Yaml.Moment` — dates and times

## Contents
- **Moments.** A `Moment` is a date, or a date with a time of day and possibly a time zone.
- **Reading.** `Moment.shape?` recognises what looks like a moment; `Moment.check` makes sure that
  the calendar and the clock have it.
- **Writing.** `Moment.text` writes the parts in fixed widths. A fraction of a second is written
  only if it is not zero.
-/

namespace Stencil.Yaml

open Text

/-- A time of day. -/
structure Clock where
  /-- The hour. -/
  hour : Nat
  /-- The minute. -/
  minute : Nat
  /-- The second. -/
  second : Nat
  /-- The millionths of a second. -/
  micro : Nat := 0
  /-- The offset of the time zone in minutes, if there is one. -/
  zone : Option Int := none
  deriving Repr, DecidableEq

/-- A date, or a point in time. -/
structure Moment where
  /-- The year. -/
  year : Nat
  /-- The month. -/
  month : Nat
  /-- The day. -/
  day : Nat
  /-- The time of day, if there is one. -/
  clock : Option Clock := none
  deriving Repr, DecidableEq

namespace Moment

/-! ## Reading -/

/-- A number of `least` to `most` digits at the start of a text. -/
def digits? (least most : Nat) (cs : List Char) : Option (Nat × List Char) :=
  let ds := (cs.take most).takeWhile isAsciiDigit
  if ds.length < least then none else some (ofDigits ds, cs.drop ds.length)

/-- The text behind a character. -/
def behind? (c : Char) : List Char → Option (List Char)
  | d :: cs => if c = d then some cs else none
  | [] => none

/-- The millionths that the digits behind a point stand for. -/
def microOf (ds : List Char) : Nat := ofDigits ((ds ++ List.replicate 6 '0').take 6)

/-- The fraction of a second, if one is written. -/
def fraction : List Char → Nat × List Char
  | '.' :: cs => (microOf (cs.takeWhile isAsciiDigit), cs.dropWhile isAsciiDigit)
  | cs => (0, cs)

/-- A time zone that takes up the rest of a text: `Z`, or hours and perhaps minutes behind a sign. -/
def zone? (cs : List Char) : Option (Option Int) :=
  if cs.isEmpty then some none
  else
    match cs.dropWhile fun c => c == ' ' || c == '\t' with
    | ['Z'] => some (some 0)
    | sign :: cs =>
      if sign = '+' || sign = '-' then do
        let (hours, cs) ← digits? 1 2 cs
        let minutes ←
          match cs with
          | [] => some 0
          | _ => do
            let (minutes, cs) ← (behind? ':' cs).bind (digits? 2 2)
            if cs.isEmpty then some minutes else none
        let offset : Int := hours * 60 + minutes
        return some (if sign = '-' then -offset else offset)
      else none
    | [] => none

/-- A time of day that takes up the rest of a text. -/
def clock? (cs : List Char) : Option Clock := do
  let (hour, cs) ← digits? 1 2 cs
  let (minute, cs) ← (behind? ':' cs).bind (digits? 2 2)
  let (second, cs) ← (behind? ':' cs).bind (digits? 2 2)
  let (micro, cs) := fraction cs
  let zone ← zone? cs
  return { hour, minute, second, micro, zone }

/-- What stands between a date and a time: a letter T, or blanks. -/
def behindSeparator? : List Char → Option (List Char)
  | c :: cs =>
    if c = 'T' || c = 't' then some cs
    else if c = ' ' || c = '\t' then some (cs.dropWhile fun c => c == ' ' || c == '\t')
    else none
  | [] => none

/-- What looks like a moment: a date with two digits each for month and day, or a date and a time. -/
def shape? (cs : List Char) : Option Moment := do
  let (year, cs) ← digits? 4 4 cs
  let cs ← behind? '-' cs
  let (month, afterMonth) ← digits? 1 2 cs
  let rest ← behind? '-' afterMonth
  let (day, afterDay) ← digits? 1 2 rest
  if afterDay.isEmpty then
    if cs.length = afterMonth.length + 2 ∧ rest.length = 2 then return { year, month, day } else none
  else
    let clock ← (behindSeparator? afterDay).bind clock?
    return { year, month, day, clock := some clock }

/-! ## Checking -/

/-- Whether a year has a leap day. -/
def isLeap (year : Nat) : Bool := year % 4 == 0 && (year % 100 != 0 || year % 400 == 0)

/-- The days of each month. -/
def monthDays (year : Nat) : List Nat :=
  [31, if isLeap year then 29 else 28, 31, 30, 31, 30, 31, 31, 30, 31, 30, 31]

/-- The moment, if the calendar and the clock have it; the time zone is looked at first. -/
def check (m : Moment) : Except BadValue Moment :=
  let zone := (m.clock.bind Clock.zone).getD 0
  if 1440 ≤ zone.natAbs then .error (.zone zone)
  else if m.year = 0 then .error (.year m.year)
  else if m.month = 0 ∨ 12 < m.month then .error .month
  else if m.day = 0 ∨ (monthDays m.year).getD (m.month - 1) 0 < m.day then .error .day
  else
    match m.clock with
    | none => .ok m
    | some t =>
      if 23 < t.hour then .error .hour
      else if 59 < t.minute then .error .minute
      else if 59 < t.second then .error .second
      else .ok m

/-! ## Comparing -/

/-- The number of the day, counted from the start of the calendar. -/
def dayNumber (m : Moment) : Nat :=
  let before := m.year - 1
  365 * before + before / 4 - before / 100 + before / 400
    + ((monthDays m.year).take (m.month - 1)).foldl (· + ·) 0 + m.day

/-- The point in time in millionths of a second, as a clock without an offset shows it. -/
def instant (m : Moment) (t : Clock) : Int :=
  let minutes : Int := (m.dayNumber * 24 + t.hour) * 60 + t.minute
  ((minutes - t.zone.getD 0) * 60 + t.second) * 1000000 + t.micro

/-- Whether two moments are the same: equal dates, or equal points in time if both or neither have
    a time zone. -/
def same (m n : Moment) : Bool :=
  match m.clock, n.clock with
  | some t, some u => t.zone.isSome == u.zone.isSome && m.instant t == n.instant u
  | none, none => m == n
  | _, _ => false

/-! ## Writing -/

/-- A number in a width of at least `n` digits. -/
def padded (n k : Nat) : String := String.ofList (Number.padLeft n (Nat.toDigits 10 k))

/-- The offset of a time zone. -/
def zoneText (minutes : Int) : String :=
  let n := minutes.natAbs
  (if minutes < 0 then "-" else "+") ++ padded 2 (n / 60) ++ ":" ++ padded 2 (n % 60)

/-- The time of day. -/
def clockText (t : Clock) : String :=
  padded 2 t.hour ++ ":" ++ padded 2 t.minute ++ ":" ++ padded 2 t.second
    ++ (if t.micro = 0 then "" else "." ++ padded 6 t.micro)
    ++ (match t.zone with | some z => zoneText z | none => "")

/-- The text of a moment. -/
def text (m : Moment) : String :=
  padded 4 m.year ++ "-" ++ padded 2 m.month ++ "-" ++ padded 2 m.day
    ++ (match m.clock with | some t => " " ++ clockText t | none => "")

end Moment

end Stencil.Yaml
