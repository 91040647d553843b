import Stencil.Text.Hex
import Stencil.Number.Shortest
import Stencil.Json.Value

/-!
# `Stencil.Json.Printer` — writing JSON

## Contents
- **Strings.** `escapeChar` escapes the quote, the backslash and the control characters below
  U+0020, five of them with a short escape; everything else stands as it is.
- **Values.** `render` writes a value in a `Style`: `compact` on one line without blanks, `indented`
  with an item a line, two spaces deeper at each level. Empty arrays and objects stay closed in
  both.
-/

namespace Stencil.Json

open Number Text

/-- One character inside a string. -/
def escapeChar (c : Char) : List Char :=
  if c = '"' then ['\\', '"']
  else if c = '\\' then ['\\', '\\']
  else if c = '\x08' then ['\\', 'b']
  else if c = '\t' then ['\\', 't']
  else if c = '\n' then ['\\', 'n']
  else if c = '\x0c' then ['\\', 'f']
  else if c = '\r' then ['\\', 'r']
  else if c.toNat < 0x20 then '\\' :: 'u' :: hexDigits 4 c.toNat
  else [c]

/-- A string between its quotes. -/
def quoteString (s : String) : List Char := '"' :: s.toList.flatMap escapeChar ++ ['"']

/-- How a value is laid out. -/
inductive Style where
  /-- On one line, without blanks. -/
  | compact
  /-- An item a line, two spaces deeper at each level. -/
  | indented
  deriving Repr, DecidableEq

/-- What stands before an item and before a closing bracket at a level. -/
def Style.lineBreak : Style → Nat → List Char
  | .compact, _ => []
  | .indented, level => '\n' :: List.replicate (2 * level) ' '

/-- What stands between a member name and its value. -/
def Style.colon : Style → List Char
  | .compact => [':']
  | .indented => [':', ' ']

/-- The items of an array or object, each on its place, with commas between them. -/
def Style.separated (style : Style) (level : Nat) : List (List Char) → List Char
  | [] => []
  | [t] => style.lineBreak level ++ t
  | t :: ts => style.lineBreak level ++ t ++ ',' :: style.separated level ts

/-- Items between brackets, at a level. -/
def Style.bracketed (style : Style) (level : Nat) (opening closing : Char) (ts : List (List Char)) :
    List Char :=
  if ts.isEmpty then [opening, closing]
  else opening :: style.separated (level + 1) ts ++ style.lineBreak level ++ [closing]

/-- The digits of an integer, behind a minus sign if it is negative. -/
def intDigits (n : Int) : List Char :=
  let digits := Nat.toDigits 10 n.natAbs
  if n < 0 then '-' :: digits else digits

mutual

/-- A value that stands at a level. -/
def render (style : Style) (level : Nat) : Value → List Char
  | .null => "null".toList
  | .bool b => (if b then "true" else "false").toList
  | .int n => intDigits n
  | .float d => (d.text jsonLayout).toList
  | .string s => quoteString s
  | .array vs => style.bracketed level '[' ']' (renderItems style (level + 1) vs)
  | .object ms => style.bracketed level '{' '}' (renderMembers style (level + 1) ms)

/-- The texts of the items of an array. -/
def renderItems (style : Style) (level : Nat) : List Value → List (List Char)
  | [] => []
  | v :: vs => render style level v :: renderItems style level vs

/-- The texts of the members of an object. -/
def renderMembers (style : Style) (level : Nat) : List (String × Value) → List (List Char)
  | [] => []
  | (name, v) :: ms =>
    (quoteString name ++ style.colon ++ render style level v) :: renderMembers style level ms

end

/-- The text of a value. -/
def Value.text (style : Style) (v : Value) : String := String.ofList (render style 0 v)

end Stencil.Json
