/-!
# `Stencil.Yaml.Cursor` — a place in a YAML text

## Contents
- **Characters.** A line ends at LF, NEL, LS or PS; texts read from a file hold no CR. A gap is a
  blank, a line break or the end of the text.
- **Cursors.** A `Cursor` holds what is left of the text and counts characters, lines and columns. A
  byte order mark takes no column.
-/

namespace Stencil.Yaml

/-- The characters that end a line. -/
def isBreak (c : Char) : Bool := c == '\n' || c == '\x85' || c == '\u2028' || c == '\u2029'

/-- A space or a tab. -/
def isSpaceOrTab (c : Char) : Bool := c == ' ' || c == '\t'

/-- A place in a text. -/
structure Cursor where
  /-- The text from the place on. -/
  rest : List Char
  /-- How many characters are before it. -/
  index : Nat := 0
  /-- How many line breaks are before it. -/
  line : Nat := 0
  /-- How many columns are before it in its line. -/
  column : Nat := 0
  deriving Repr

namespace Cursor

/-- The character `n` places ahead. -/
def peek (c : Cursor) (n : Nat := 0) : Option Char := c.rest[n]?

/-- Whether the character `n` places ahead is in a class. -/
def sees (c : Cursor) (p : Char → Bool) (n : Nat := 0) : Bool := (c.peek n).any p

/-- Whether the text ends or has a line break `n` places ahead. -/
def seesEnd (c : Cursor) (n : Nat := 0) : Bool := (c.peek n).all isBreak

/-- Whether there is a gap `n` places ahead. -/
def seesGap (c : Cursor) (n : Nat := 0) : Bool := (c.peek n).all fun x => isBreak x || isSpaceOrTab x

/-- The place behind the next character. -/
def next (c : Cursor) : Cursor :=
  match c.rest with
  | [] => c
  | x :: rest =>
    if isBreak x then { rest, index := c.index + 1, line := c.line + 1, column := 0 }
    else
      { rest, index := c.index + 1, line := c.line
        column := if x = '\ufeff' then c.column else c.column + 1 }

/-- The place behind the next `n` characters. -/
def advance (c : Cursor) : Nat → Cursor
  | 0 => c
  | n + 1 => c.next.advance n

/-- The characters of a class that come next, and the place behind them. -/
def span (c : Cursor) (p : Char → Bool) : List Char × Cursor :=
  let taken := c.rest.takeWhile p
  (taken, c.advance taken.length)

/-- The place behind the characters of a class that come next. -/
def skip (c : Cursor) (p : Char → Bool) : Cursor := (c.span p).2

/-- The line break that comes next, NEL read as LF, and the place behind it. -/
def lineBreak? (c : Cursor) : Option (Char × Cursor) :=
  match c.peek with
  | some x => if isBreak x then some (if x = '\x85' then '\n' else x, c.next) else none
  | none => none

/-- The place behind a comment, if one comes next. -/
def skipComment (c : Cursor) : Cursor :=
  if c.peek = some '#' then c.skip fun x => !isBreak x else c

/-- Whether a document marker made of three times `x` comes next. -/
def seesMarker (c : Cursor) (x : Char) : Bool :=
  c.rest.take 3 == [x, x, x] && c.seesGap 3

/-- Whether either document marker comes next. -/
def seesAnyMarker (c : Cursor) : Bool := c.seesMarker '-' || c.seesMarker '.'

/-- More steps than there are characters left. -/
def fuel (c : Cursor) : Nat := c.rest.length + 1

end Cursor

end Stencil.Yaml
