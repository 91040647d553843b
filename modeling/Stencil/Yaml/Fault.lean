import Stencil.Number.Limit

/-!
# `Stencil.Yaml.Fault` — what keeps a text from being a YAML document of values

## Contents
- **Flaws.** A `Flaw` is a place where the text breaks the rules of YAML.
- **Bad values.** A `BadValue` is a number, a point in time or an escape that has the form of one and
  stands for nothing.
- **Limits.** What YAML has and this library does not read is neither of these. It is left to another
  reader, which has faults of its own.
-/

namespace Stencil.Yaml

/-- How a text can break the rules. -/
inductive Flaw where
  /-- A character that no YAML text may hold. -/
  | unprintable
  /-- A character that starts no token; a tab before a token is one. -/
  | strayCharacter
  /-- A malformed alias. -/
  | badAlias
  /-- A malformed directive. -/
  | badDirective
  /-- A quoted scalar without its closing quote. -/
  | unterminatedQuote
  /-- A document marker inside a quoted scalar. -/
  | markerInQuote
  /-- A backslash that starts no escape. -/
  | badEscape
  /-- A malformed first line of a block scalar. -/
  | badBlockHeader
  /-- A line that has to be a key and has no colon. -/
  | missingColon
  /-- A dash, question mark or colon where none may stand. -/
  | misplacedIndicator
  /-- A token that does not continue the structure. -/
  | unexpectedToken
  /-- Something behind the end of the document. -/
  | severalDocuments
  /-- A list or mapping as a key. -/
  | collectionKey
  /-- A scalar of a kind that stands for no value. -/
  | unknownKind
  deriving Repr, DecidableEq

/-- What has the form of a value and is none. -/
inductive BadValue where
  /-- No digits behind the mark of a number base. -/
  | noDigits (base : Nat)
  /-- An escape beyond the last code point. -/
  | beyondUnicode
  /-- An escape far beyond the last code point. -/
  | beyondWord
  /-- A numeral in base sixty with a point whose first place is worth more than a double can be. -/
  | beyondDouble
  /-- A numeral with more digits than are read. -/
  | tooManyDigits (n : Nat)
  /-- A year that the calendar does not have. -/
  | year (n : Nat)
  /-- A month that the year does not have. -/
  | month
  /-- A day that the month does not have. -/
  | day
  /-- An hour that the day does not have. -/
  | hour
  /-- A minute that the hour does not have. -/
  | minute
  /-- A second that the minute does not have. -/
  | second
  /-- A time zone of a day or more, in minutes. -/
  | zone (minutes : Int)
  deriving Repr, DecidableEq

/-- A span of time in days and seconds; the seconds are not negative. -/
def spanText (minutes : Int) : String :=
  let days := Int.fdiv minutes 1440
  let seconds := Int.fmod minutes 1440 * 60
  "datetime.timedelta(days=" ++ toString days
    ++ (if seconds = 0 then "" else ", seconds=" ++ toString seconds) ++ ")"

/-- What is wrong with the value, in words. -/
def BadValue.message : BadValue → String
  | .noDigits base => "invalid literal for int() with base " ++ toString base ++ ": ''"
  | .beyondUnicode => "chr() arg not in range(0x110000)"
  | .beyondWord => "Python int too large to convert to C int"
  | .beyondDouble => "int too large to convert to float"
  | .tooManyDigits n => Number.tooLongToRead n
  | .year n => "year " ++ toString n ++ " is out of range"
  | .month => "month must be in 1..12"
  | .day => "day is out of range for month"
  | .hour => "hour must be in 0..23"
  | .minute => "minute must be in 0..59"
  | .second => "second must be in 0..59"
  | .zone minutes =>
    "offset must be a timedelta strictly between -timedelta(hours=24) and timedelta(hours=24), not "
      ++ spanText minutes ++ "."

/-- The first fault of a text. -/
inductive Fault where
  /-- The text is malformed. -/
  | malformed (f : Flaw)
  /-- A scalar is no value. -/
  | badValue (v : BadValue)
  /-- There is an anchor, a tag or a merge, which this library does not read. -/
  | unsupported
  deriving Repr, DecidableEq

/-- Why a reader of all that YAML has makes nothing of a text. -/
inductive ReaderFault where
  /-- The text is malformed. -/
  | malformed
  /-- Something is no value. -/
  | badValue (message : String)
  /-- The reader comes upon something that it does not expect. -/
  | breakdown (message : String)
  deriving Repr, DecidableEq

/-- The fault of a reader in words. -/
def ReaderFault.message : ReaderFault → String
  | .malformed => "malformed YAML"
  | .badValue message => message
  | .breakdown message => message

end Stencil.Yaml
