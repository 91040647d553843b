import Stencil.Entries
import Stencil.Text.CodePoints
import Stencil.Text.Hex
import Stencil.Text.Digit
import Stencil.Json.Value
import Stencil.Json.Fault

/-!
# `Stencil.Json.Parser` — reading JSON

## Contents
- **Strings.** `stringPoints` reads up to the closing quote, with escapes replaced by their code
  points; the halves of surrogate pairs are then put together.
- **Numbers.** `number` reads the longest numeral that starts the text, an integer unless it has a
  fraction or an exponent.
- **Values.** `parse` reads a whole text, or names its first fault. White space is space, tab, LF
  and CR.

A `Dialect` decides what is done about half of a surrogate pair, a long numeral and a repeated name, and whether
there is a limit to nesting. The strict one keeps no more than `maxNesting` arrays and objects open. The lenient one
goes as deep as the stack of its machine, of which nothing is said here.

A value is read with fuel, twice the length of the text: of two calls one takes a character.
-/

namespace Stencil.Json

open Number Text

/-- White space between tokens. -/
def isJsonSpace (c : Char) : Bool := c == ' ' || c == '\t' || c == '\n' || c == '\r'

/-- The text behind leading white space. -/
def skipSpace (cs : List Char) : List Char := cs.dropWhile isJsonSpace

/-! ## Strings -/

/-- What a backslash and one further character stand for. -/
def simpleEscape? : Char → Option Char
  | '"' => some '"'
  | '\\' => some '\\'
  | '/' => some '/'
  | 'b' => some '\x08'
  | 'f' => some '\x0c'
  | 'n' => some '\n'
  | 'r' => some '\r'
  | 't' => some '\t'
  | _ => none

/-- Reads up to the closing quote: the code points of the characters, where an escape by code point
    counts as one even if it is half of a surrogate pair. The opening quote had `opening` characters
    from it to the end of the text. -/
def stringPoints (opening : Nat) : List Char → Except Fault (List Nat × List Char)
  | [] => .error ⟨.unterminatedString, opening⟩
  | '"' :: cs => .ok ([], cs)
  | '\\' :: 'u' :: a :: b :: c :: d :: e :: cs =>
    match ofHexDigits? [a, b, c, d] with
    | none => .error ⟨.badUnicodeEscape, cs.length + 6⟩
    | some n => (stringPoints opening (e :: cs)).map fun r => (n :: r.1, r.2)
  | '\\' :: 'u' :: cs => .error ⟨.badUnicodeEscape, cs.length + 1⟩
  | '\\' :: c :: cs =>
    match simpleEscape? c with
    | none => .error ⟨.badEscape, cs.length + 2⟩
    | some x => (stringPoints opening cs).map fun r => (x.toNat :: r.1, r.2)
  | '\\' :: [] => .error ⟨.unterminatedString, opening⟩
  | c :: cs =>
    if c.toNat < 0x20 then .error ⟨.controlCharacter, cs.length + 1⟩
    else (stringPoints opening cs).map fun r => (c.toNat :: r.1, r.2)

/-- How a text is read where readers of JSON differ. -/
inductive Dialect where
  /-- Half of a surrogate pair, a long whole part of any number and deep nesting are faults, and an object keeps all its
      members. -/
  | strict
  /-- Halves of surrogate pairs are kept apart from all else and then replaced, only a long integer is a fault, and of
      a repeated name an object keeps the first position and the last value. -/
  | lenient
  deriving Repr, DecidableEq

/-- The string whose opening quote has just been passed. -/
def stringBody (d : Dialect) (cs : List Char) : Except Fault (CodePoints × List Char) :=
  match stringPoints (cs.length + 1) cs with
  | .error e => .error e
  | .ok (points, rest) =>
    let joined := CodePoints.joined ⟨points⟩
    match d, joined.toString? with
    | .strict, none => .error ⟨.unpairedSurrogate, cs.length + 1⟩
    | _, _ => .ok (joined, rest)

/-! ## Numbers -/

/-- The digits of the whole part: a zero, or digits that start with another digit. -/
def wholePart? : List Char → Option (List Char × List Char)
  | '0' :: cs => some (['0'], cs)
  | c :: cs =>
    if isAsciiDigit c then some (c :: cs.takeWhile isAsciiDigit, cs.dropWhile isAsciiDigit) else none
  | [] => none

/-- The digits behind a point, if there are any. -/
def fractionPart : List Char → List Char × List Char
  | '.' :: cs =>
    if (cs.takeWhile isAsciiDigit).isEmpty then ([], '.' :: cs)
    else (cs.takeWhile isAsciiDigit, cs.dropWhile isAsciiDigit)
  | cs => ([], cs)

/-- The exponent behind an exponent mark, if it has digits. -/
def exponentPart (cs : List Char) : Option Int × List Char :=
  match cs with
  | c :: r =>
    if c = 'e' || c = 'E' then
      let (negative, r) :=
        match r with
        | '-' :: r => (true, r)
        | '+' :: r => (false, r)
        | r => (false, r)
      let digits := r.takeWhile isAsciiDigit
      if digits.isEmpty then (none, cs)
      else
        let n : Int := ofDigits digits
        (some (if negative then -n else n), r.dropWhile isAsciiDigit)
    else (none, cs)
  | [] => (none, [])

/-- The number at the start of a text, behind its sign. The text with the sign has `length` characters. -/
def unsigned (d : Dialect) (length : Nat) (negative : Bool) (cs : List Char) : Except Fault (Value × List Char) :=
  match wholePart? cs with
  | none => .error ⟨.expectingValue, length⟩
  | some (whole, rest) =>
    let tooLong : Except Fault (Value × List Char) := .error ⟨.tooManyDigits whole.length, length⟩
    let (fraction, rest) := fractionPart rest
    let (exponent, rest) := exponentPart rest
    if d = .strict ∧ maxDigits < whole.length then tooLong
    else if fraction.isEmpty && exponent.isNone then
      let n : Int := ofDigits whole
      if maxDigits < whole.length then tooLong else .ok (.int (if negative then -n else n), rest)
    else
      .ok (.float (Double.ofDecimal negative (ofDigits (whole ++ fraction))
        (exponent.getD 0 - (fraction.length : Int))), rest)

/-- The text behind a word, if the text starts with it. -/
def word? (w cs : List Char) : Option (List Char) :=
  if w.isPrefixOf cs then some (cs.drop w.length) else none

/-- The number at the start of a text, in digits or by name. -/
def number (d : Dialect) (cs : List Char) : Except Fault (Value × List Char) :=
  match word? "NaN".toList cs, word? "Infinity".toList cs, word? "-Infinity".toList cs with
  | some r, _, _ => .ok (.float .nan, r)
  | _, some r, _ => .ok (.float (.infinite false), r)
  | _, _, some r => .ok (.float (.infinite true), r)
  | none, none, none =>
    match cs with
    | '-' :: r => unsigned d cs.length true r
    | _ => unsigned d cs.length false cs

/-- The null and truth values at the start of a text. -/
def literal? (cs : List Char) : Option (Value × List Char) :=
  match word? "null".toList cs, word? "true".toList cs, word? "false".toList cs with
  | some r, _, _ => some (.null, r)
  | _, some r, _ => some (.bool true, r)
  | _, _, some r => some (.bool false, r)
  | none, none, none => none

/-! ## Values -/

/-- The object with members of these names. -/
def objectOf (d : Dialect) (ms : List (CodePoints × Value)) : Value :=
  let ms :=
    match d with
    | .strict => ms
    | .lenient => Entries.collapse ms
  .object (ms.map fun m => (m.1.inBytes, m.2))

mutual

/-- The value at the start of a text, and the text behind it. -/
def value (d : Dialect) : Nat → List Char → Except Fault (Value × List Char)
  | 0, cs => .error ⟨.expectingValue, cs.length⟩
  | fuel + 1, cs =>
    match cs with
    | '"' :: r => (stringBody d r).map fun p => (.string p.1.inBytes, p.2)
    | '{' :: r =>
      match skipSpace r with
      | '}' :: r => .ok (.object [], r)
      | r => (members d fuel r).map fun p => (objectOf d p.1, p.2)
    | '[' :: r =>
      match skipSpace r with
      | ']' :: r => .ok (.array [], r)
      | r => (items d fuel r).map fun p => (.array p.1, p.2)
    | _ =>
      match literal? cs with
      | some p => .ok p
      | none => number d cs

/-- The members of an object from one member name on, up to the closing brace. -/
def members (d : Dialect) : Nat → List Char → Except Fault (List (CodePoints × Value) × List Char)
  | 0, cs => .error ⟨.expectingName, cs.length⟩
  | fuel + 1, cs =>
    match cs with
    | '"' :: r =>
      match stringBody d r with
      | .error e => .error e
      | .ok (name, r) =>
        match skipSpace r with
        | ':' :: r =>
          match value d fuel (skipSpace r) with
          | .error e => .error e
          | .ok (v, r) =>
            match skipSpace r with
            | '}' :: r => .ok ([(name, v)], r)
            | ',' :: r => (members d fuel (skipSpace r)).map fun p => ((name, v) :: p.1, p.2)
            | r => .error ⟨.expectingComma, r.length⟩
        | r => .error ⟨.expectingColon, r.length⟩
    | _ => .error ⟨.expectingName, cs.length⟩

/-- The items of an array from one item on, up to the closing bracket. -/
def items (d : Dialect) : Nat → List Char → Except Fault (List Value × List Char)
  | 0, cs => .error ⟨.expectingValue, cs.length⟩
  | fuel + 1, cs =>
    match value d fuel cs with
    | .error e => .error e
    | .ok (v, r) =>
      match skipSpace r with
      | ']' :: r => .ok ([v], r)
      | ',' :: r => (items d fuel (skipSpace r)).map fun p => (v :: p.1, p.2)
      | r => .error ⟨.expectingComma, r.length⟩

end

/-- The most arrays and objects that a strict reader keeps open. An empty one is read at once. -/
def maxNesting : Nat := 200

/-- The value of a whole text, or its first fault; nesting is looked at last. -/
def parse (d : Dialect) (text : List Char) : Except Fault Value :=
  match text with
  | '\ufeff' :: _ => .error ⟨.byteOrderMark, text.length⟩
  | _ =>
    match value d (2 * text.length + 2) (skipSpace text) with
    | .error e => .error e
    | .ok (v, r) =>
      match skipSpace r with
      | [] => if d = .strict ∧ maxNesting < v.nesting then .error ⟨.tooDeep, 0⟩ else .ok v
      | r => .error ⟨.extraData, r.length⟩

end Stencil.Json
