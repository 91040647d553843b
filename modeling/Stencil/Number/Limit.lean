/-!
# `Stencil.Number.Limit` — how long a decimal numeral may be

The work of turning a decimal numeral into a number grows with the square of its length, and so does
the work of writing a number out. Integers are therefore read and written in decimal only up to
`maxDigits` digits. Numerals of a base that is a power of two are not limited.
-/

namespace Stencil.Number

/-- The most digits of an integer that are read or written in decimal. -/
def maxDigits : Nat := 4300

/-- Why a text stands for no integer. -/
inductive NumeralFault where
  /-- It is no numeral. -/
  | malformed
  /-- It has more digits than are read. -/
  | tooLong (digits : Nat)
  deriving Repr, DecidableEq

/-- The start of each message about the limit. -/
def limitText : String :=
  "Exceeds the limit (" ++ toString maxDigits ++ " digits) for integer string conversion"

/-- The end of each message about the limit. -/
def limitAdvice : String := "; use sys.set_int_max_str_digits() to increase the limit"

/-- The message about a numeral that has too many digits to be read. -/
def tooLongToRead (digits : Nat) : String :=
  limitText ++ ": value has " ++ toString digits ++ " digits" ++ limitAdvice

/-- The message about an integer that has too many digits to be written. -/
def tooLongToWrite : String := limitText ++ limitAdvice

/-- Whether an integer is short enough to be written. -/
def isWritable (n : Int) : Bool := n.natAbs < Nat.pow 10 maxDigits

end Stencil.Number
