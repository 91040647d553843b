import Stencil.Number.Limit

/-!
# `Stencil.Json.Fault` — what keeps a text from being JSON

A fault knows how many characters are left of the text from its place on, which fixes the place
without counting along. `Fault.message` works out the line and the column.
-/

namespace Stencil.Json

/-- The kinds of fault. -/
inductive FaultKind where
  /-- No value starts here. -/
  | expectingValue
  /-- No quoted member name starts here. -/
  | expectingName
  /-- No colon follows a member name. -/
  | expectingColon
  /-- Neither a comma nor the closing bracket follows an item. -/
  | expectingComma
  /-- Text follows the value. -/
  | extraData
  /-- A string has no closing quote; the place is that of the opening one. -/
  | unterminatedString
  /-- A string holds a control character. -/
  | controlCharacter
  /-- A backslash is followed by a character that is no escape. -/
  | badEscape
  /-- An escape by code point does not have four hexadecimal digits. -/
  | badUnicodeEscape
  /-- A string holds half of a surrogate pair. -/
  | unpairedSurrogate
  /-- The text starts with a byte order mark. -/
  | byteOrderMark
  /-- A number has more digits than are read. -/
  | tooManyDigits (n : Nat)
  /-- Arrays and objects are nested more deeply than they are read. -/
  | tooDeep
  deriving Repr, DecidableEq

/-- What is wrong, in words. -/
def FaultKind.message : FaultKind → String
  | .expectingValue => "Expecting value"
  | .expectingName => "Expecting property name enclosed in double quotes"
  | .expectingColon => "Expecting ':' delimiter"
  | .expectingComma => "Expecting ',' delimiter"
  | .extraData => "Extra data"
  | .unterminatedString => "Unterminated string starting at"
  | .controlCharacter => "Invalid control character at"
  | .badEscape => "Invalid \\escape"
  | .badUnicodeEscape => "Invalid \\uXXXX escape"
  | .unpairedSurrogate => "Unpaired surrogate in string"
  | .byteOrderMark => "Unexpected UTF-8 BOM (decode using utf-8-sig)"
  | .tooManyDigits n => Number.tooLongToRead n
  | .tooDeep => "Recursion limit exceeded"

/-- The first fault of a text. -/
structure Fault where
  /-- What is wrong. -/
  kind : FaultKind
  /-- How many characters there are from the place of the fault to the end of the text. -/
  left : Nat
  deriving Repr, DecidableEq

/-- Where the fault is in the text: line and column counted from one, position from zero. -/
def Fault.placeText (text : List Char) (f : Fault) : String :=
  let before := text.take (text.length - f.left)
  let line := before.count '\n' + 1
  let column := (before.reverse.takeWhile (· != '\n')).length + 1
  "line " ++ toString line ++ " column " ++ toString column ++ " (char " ++ toString before.length ++ ")"

/-- The fault in words. The place of a number with too many digits is not told. -/
def Fault.message (text : List Char) (f : Fault) : String :=
  match f.kind with
  | .tooManyDigits _ => f.kind.message
  | _ => f.kind.message ++ ": " ++ f.placeText text

end Stencil.Json
