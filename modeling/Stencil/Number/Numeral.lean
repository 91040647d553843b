import Stencil.Text.Blank
import Stencil.Text.Digit
import Stencil.Number.Double
import Stencil.Number.Limit

/-!
# `Stencil.Number.Numeral` — reading numbers from text

## Contents
- **Integers.** `integer` reads what a person types: spaces around it, a sign, decimal digits of any
  script, single underscores between digits. `fieldInteger` reads a number field given as text:
  ASCII digits only, but zeros may lead and a fraction of zeros may follow.
- **Doubles.** `double?` reads a decimal numeral with an optional fraction and exponent, or the name
  of a value that has no numeral.

The digits of an integer are counted before they are read, and too many of them are a fault of their
own.
-/

namespace Stencil.Number

open Text

/-- Each decimal digit as the ASCII digit of the same value. -/
def asciiDigits (cs : List Char) : List Char :=
  cs.map fun c =>
    match digitValue? c with
    | some v => Char.ofNat (0x30 + v)
    | none => c

/-- Drops the underscores, each of which has to stand between two ASCII digits; `afterDigit` tells
    whether the character before was one. -/
def dropUnderscores? : (afterDigit : Bool) → List Char → Option (List Char)
  | _, [] => some []
  | afterDigit, c :: cs =>
    if c = '_' then
      match cs with
      | [] => none
      | d :: _ => if afterDigit && isAsciiDigit d then dropUnderscores? false cs else none
    else (dropUnderscores? (isAsciiDigit c) cs).map (c :: ·)

/-- The magnitude written by a text of nothing but ASCII digits. -/
def natural? (cs : List Char) : Option Nat :=
  if cs.isEmpty || !cs.all isAsciiDigit then none else some (ofDigits cs)

/-- Whether a minus sign leads, and what follows the optional sign. -/
def splitSign : List Char → Bool × List Char
  | '-' :: cs => (true, cs)
  | '+' :: cs => (false, cs)
  | cs => (false, cs)

/-- Whether a minus sign leads, and what follows it. -/
def splitMinus : List Char → Bool × List Char
  | '-' :: cs => (true, cs)
  | cs => (false, cs)

/-- An integer with a sign. -/
def signed (negative : Bool) (n : Nat) : Int := if negative then -(n : Int) else n

/-- A digit or an underscore. -/
def isDigitOrBar (c : Char) : Bool := isAsciiDigit c || c == '_'

/-- The integer that a text stands for, with digits of any script. The digits that lead are counted before anything
    behind them is looked at. -/
def integer (cs : List Char) : Except NumeralFault Int :=
  let (negative, body) := splitSign (trim isSpace (asciiDigits cs))
  let leading := body.takeWhile isDigitOrBar
  match dropUnderscores? false leading with
  | none => .error .malformed
  | some digits =>
    if maxDigits < digits.length then .error (.tooLong digits.length)
    else if digits.isEmpty || leading.length < body.length then .error .malformed
    else .ok (signed negative (ofDigits digits))

/-! ## Number fields -/

/-- The integer that a text is in plain notation: an optional minus sign and digits, of which a zero may only stand
    alone. The digits that lead are counted before anything behind them is looked at. -/
def plainInteger (cs : List Char) : Except NumeralFault Int :=
  let (negative, digits) := splitMinus cs
  let leading := digits.takeWhile isAsciiDigit
  if digits = ['0'] then .ok 0
  else if leading.isEmpty || leading.head? == some '0' then .error .malformed
  else if maxDigits < leading.length then .error (.tooLong leading.length)
  else if leading.length < digits.length then .error .malformed
  else .ok (signed negative (ofDigits leading))

/-- The text from the end of its leading zeros on, if it starts with a digit or a minus sign. Behind zeros a minus
    sign may follow. A last zero stays, and so does one before a point; underscores among the leading zeros go with
    them. -/
def dropLeadingZeros? : List Char → Option (List Char)
  | '0' :: cs => go '0' cs
  | c :: cs => if isAsciiDigit c || c = '-' then some (c :: cs) else none
  | [] => none
where
  /-- Continues behind the zero or underscore `last`. -/
  go (last : Char) : List Char → Option (List Char)
    | [] => some [last]
    | c :: cs =>
      if c = '0' || c = '_' then go c cs
      else if c = '.' then some (last :: c :: cs)
      else if isAsciiDigit c || c = '-' then some (c :: cs)
      else none

/-- Drops a fraction that consists of zeros. -/
def dropZeroFraction (cs : List Char) : List Char :=
  let whole := cs.takeWhile (· != '.')
  match cs.dropWhile (· != '.') with
  | _ :: zeros => if !zeros.isEmpty && zeros.all (· == '0') then whole else cs
  | [] => cs

/-- Drops the underscores, none of which may stand at either end or beside another one. -/
def dropInnerBars? (cs : List Char) : Option (List Char) :=
  let isDoubled := (cs.zip (cs.drop 1)).any fun p => p.1 == '_' && p.2 == '_'
  if cs.head? = some '_' || cs.getLast? = some '_' || isDoubled then none
  else some (cs.filter (· != '_'))

/-- A text behind its sign without what a number field may have beyond plain notation: leading zeros, a fraction of
    zeros and underscores. -/
def plainMagnitude? (cs : List Char) : Option (List Char) := do
  dropInnerBars? (dropZeroFraction (← dropLeadingZeros? cs))

/-- A text in plain notation: without spaces around it and a plus sign, and with a plain magnitude. -/
def plainNotation? (cs : List Char) : Option (List Char) :=
  match trim isSpace cs with
  | '+' :: '-' :: _ => none
  | '+' :: cs => plainMagnitude? cs
  | '-' :: cs => (plainMagnitude? cs).map ('-' :: ·)
  | cs => plainMagnitude? cs

/-- The integer that a number field given as text stands for. Only a text that starts with too many digits as it stands
    is too long; one that has too many when it is in plain notation is malformed. -/
def fieldInteger (cs : List Char) : Except NumeralFault Int :=
  match plainInteger cs with
  | .error .malformed =>
    match (plainNotation? cs).map plainInteger with
    | some (.ok n) => .ok n
    | _ => .error .malformed
  | r => r

/-! ## Doubles -/

/-- The ASCII small letter of a capital. -/
def lowerAscii (c : Char) : Char :=
  if 0x41 ≤ c.toNat ∧ c.toNat ≤ 0x5A then Char.ofNat (c.toNat + 0x20) else c

/-- The exponent part of a numeral: nothing, or a letter, an optional sign and digits. -/
def exponentPart? : List Char → Option Int
  | [] => some 0
  | c :: cs =>
    if c = 'e' || c = 'E' then
      let (negative, digits) := splitSign cs
      (natural? digits).map (signed negative)
    else none

/-- The double nearest to an unsigned decimal numeral; digits may be missing on one side of the point. -/
def decimal? (negative : Bool) (cs : List Char) : Option Double :=
  let whole := cs.takeWhile isAsciiDigit
  let rest := cs.dropWhile isAsciiDigit
  let (fraction, rest) :=
    match rest with
    | '.' :: more => (more.takeWhile isAsciiDigit, more.dropWhile isAsciiDigit)
    | _ => ([], rest)
  if whole.isEmpty && fraction.isEmpty then none
  else
    (exponentPart? rest).map fun e =>
      Double.ofDecimal negative (ofDigits (whole ++ fraction)) (e - (fraction.length : Int))

/-- The double that a text stands for: a decimal numeral, or `inf`, `infinity` or `nan` in any case. -/
def double? (cs : List Char) : Option Double := do
  let cs ← dropUnderscores? false (trim isSpace (asciiDigits cs))
  let (negative, body) := splitSign cs
  let name := String.ofList (body.map lowerAscii)
  if name = "inf" ∨ name = "infinity" then return .infinite negative
  else if name = "nan" then return .nan
  else decimal? negative body

/-- Digits of other scripts, and underscores between digits. -/
example : (integer " ٣_٤ ".toList).toOption = some 34 ∧ (integer "1__0".toList).toOption = none := by
  decide +kernel

/-- A fraction of zeros may follow, but not a bare point. -/
example : (fieldInteger "3.00".toList).toOption = some 3 ∧ (fieldInteger "3.".toList).toOption = none
    ∧ (fieldInteger "00".toList).toOption = some 0 := by decide +kernel

/-- Zeros may lead behind a minus sign, and a minus sign may stand behind leading zeros, but not both. -/
example : (fieldInteger "-0_5.0".toList).toOption = some (-5) ∧ (fieldInteger "0_-5.0".toList).toOption = some (-5)
    ∧ (fieldInteger "-0-5".toList).toOption = none := by decide +kernel

end Stencil.Number
