import Stencil.Text.Hex
import Stencil.Text.Printable

/-!
# `Stencil.Text.Quoted` — a text between quotes, for messages

Error messages show a path or a number between quotes, so that blanks and controls in it can be
seen. Single quotes are used unless the text holds a single quote and no double one. Inside, the
backslash, the quote in use and everything unprintable are escaped; tab and the two newlines have
short escapes.
-/

namespace Stencil.Text

/-- The escape of an unprintable character: two, four or eight hexadecimal digits. -/
def escapeCode (c : Char) : List Char :=
  let n := c.toNat
  if n < 0x100 then '\\' :: 'x' :: hexDigits 2 n
  else if n < 0x10000 then '\\' :: 'u' :: hexDigits 4 n
  else '\\' :: 'U' :: hexDigits 8 n

/-- One character as it stands between quotes `q`. -/
def quoteChar (q c : Char) : List Char :=
  if c = q ∨ c = '\\' then ['\\', c]
  else if c = '\t' then ['\\', 't']
  else if c = '\n' then ['\\', 'n']
  else if c = '\r' then ['\\', 'r']
  else if isPrintable c then [c]
  else escapeCode c

/-- The quote that is put around a text. -/
def quoteMark (cs : List Char) : Char :=
  if '\'' ∈ cs ∧ '"' ∉ cs then '"' else '\''

/-- The text between quotes. -/
def quoted (s : String) : String :=
  let cs := s.toList
  let q := quoteMark cs
  String.ofList (q :: cs.flatMap (quoteChar q) ++ [q])

end Stencil.Text
