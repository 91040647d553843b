import Stencil.Text.Hex
import Stencil.Text.Digit
import Stencil.Text.CodePoints
import Stencil.Yaml.Cursor
import Stencil.Yaml.Fault

/-!
# `Stencil.Yaml.Scalar` — reading scalars

## Contents
- **Scalars.** A `Scalar` is plain, or it is in quotes or a block. Only escapes in double quotes can
  name halves of surrogate pairs, which stay as they are.
- **Quoted scalars.** `quoted` reads between single or double quotes. Line breaks are folded: one
  becomes a space, of several all but the first stay. Double quotes know escapes.
- **Plain scalars.** `plain` reads words up to a colon or comment, over several lines if they are
  indented deeply enough.
- **Block scalars.** `block` reads the indented lines below a bar (kept as they are) or a
  greater-than sign (folded), with chomping of the line breaks at the end as the header says.
-/

namespace Stencil.Yaml

open Text

/-- A scalar as it is written. -/
inductive Scalar where
  /-- Without quotes; such a scalar may stand for more than a text. -/
  | plain (text : String)
  /-- In quotes, or as a block. -/
  | styled (text : CodePoints)
  deriving Repr, DecidableEq, Inhabited

/-- The outcome of reading at a place. -/
abbrev Read (α : Type) := Except Fault (α × Cursor)

/-! ## Quoted scalars -/

/-- What a backslash and one further character stand for. -/
def simpleEscape? : Char → Option Char
  | '0' => some '\x00'
  | 'a' => some '\x07'
  | 'b' => some '\x08'
  | 't' => some '\t'
  | '\t' => some '\t'
  | 'n' => some '\n'
  | 'v' => some '\x0b'
  | 'f' => some '\x0c'
  | 'r' => some '\r'
  | 'e' => some '\x1b'
  | ' ' => some ' '
  | '"' => some '"'
  | '\\' => some '\\'
  | '/' => some '/'
  | 'N' => some '\x85'
  | '_' => some '\u00a0'
  | 'L' => some '\u2028'
  | 'P' => some '\u2029'
  | _ => none

/-- How many hexadecimal digits follow the letter of an escape by code point. -/
def codeLength? : Char → Option Nat
  | 'x' => some 2
  | 'u' => some 4
  | 'U' => some 8
  | _ => none

/-- The further line breaks inside a quoted scalar, with the blanks around them dropped. -/
def foldedBreaks : (fuel : Nat) → Cursor → Read (List Char)
  | 0, c => .ok ([], c)
  | fuel + 1, c =>
    if c.seesAnyMarker then .error (.malformed .markerInQuote)
    else
      let c := c.skip isSpaceOrTab
      match c.lineBreak? with
      | none => .ok ([], c)
      | some (x, c) => (foldedBreaks fuel c).map fun r => (x :: r.1, r.2)

/-- What one line break and the further breaks behind it become. -/
def foldBreaks (first : Char) (further : List Char) : List Char :=
  if first ≠ '\n' then first :: further
  else if further.isEmpty then [' ']
  else further

/-- Blanks inside a quoted scalar, or a stretch of line breaks. -/
def quotedGap (c : Cursor) : Read (List Char) :=
  let (blanks, c) := c.span isSpaceOrTab
  match c.lineBreak? with
  | some (x, c) => (foldedBreaks c.fuel c).map fun r => (foldBreaks x r.1, r.2)
  | none => if c.peek.isNone then .error (.malformed .unterminatedQuote) else .ok (blanks, c)

/-- The code point of an escape whose letter has just been passed. -/
def codeEscape (length : Nat) (c : Cursor) : Read Nat :=
  let digits := c.rest.take length
  if digits.length < length then .error (.malformed .badEscape)
  else
    match ofHexDigits? digits with
    | none => .error (.malformed .badEscape)
    | some n =>
      if n < 0x110000 then .ok (n, c.advance length)
      else if n < 0x80000000 then .error (.badValue .beyondUnicode)
      else .error (.badValue .beyondWord)

/-- The code points of an escape whose backslash has just been passed. -/
def escape (c : Cursor) : Read (List Nat) :=
  match c.peek with
  | none => .error (.malformed .badEscape)
  | some x =>
    match simpleEscape? x, codeLength? x with
    | some y, _ => .ok ([y.toNat], c.next)
    | none, some length => (codeEscape length c.next).map fun r => ([r.1], r.2)
    | none, none =>
      match c.lineBreak? with
      | some (_, c) => (foldedBreaks c.fuel c).map fun r => (r.1.map Char.toNat, r.2)
      | none => .error (.malformed .badEscape)

/-- The code points of a quoted scalar up to its closing quote, whose opening quote has just been passed. -/
def quotedPoints (quote : Char) : (fuel : Nat) → Cursor → Read (List Nat)
  | 0, _ => .error (.malformed .unterminatedQuote)
  | fuel + 1, c =>
    let more (first : List Nat) (c : Cursor) : Read (List Nat) :=
      (quotedPoints quote fuel c).map fun r => (first ++ r.1, r.2)
    match c.peek with
    | none => .error (.malformed .unterminatedQuote)
    | some x =>
      if x = quote then
        if quote = '\'' ∧ c.peek 1 = some '\'' then more ['\''.toNat] (c.advance 2)
        else .ok ([], c.next)
      else if x = '\\' ∧ quote = '"' then
        match escape c.next with
        | .error e => .error e
        | .ok (points, c) => more points c
      else if isBreak x || isSpaceOrTab x then
        match quotedGap c with
        | .error e => .error e
        | .ok (gap, c) => more (gap.map Char.toNat) c
      else more [x.toNat] c.next

/-- A quoted scalar, at its opening quote. -/
def quoted (quote : Char) (c : Cursor) : Read CodePoints :=
  (quotedPoints quote c.fuel c.next).map fun r => (⟨r.1⟩, r.2)

/-! ## Plain scalars -/

/-- The brackets and the comma that end a plain scalar inside a flow collection. -/
def isFlowIndicator (c : Char) : Bool := c == ',' || c == '[' || c == ']' || c == '{' || c == '}'

/-- How many characters a word of a plain scalar has: it ends at a gap, at a colon with a gap behind it, and inside a
    flow collection at the signs of such collections. -/
def wordLength (inFlow : Bool) : List Char → Nat
  | [] => 0
  | x :: rest =>
    let ends :=
      match x with
      | ':' => rest.head?.all fun y => isBreak y || isSpaceOrTab y || (inFlow && isFlowIndicator y)
      | _ => isBreak x || isSpaceOrTab x || (inFlow && (isFlowIndicator x || x == '?'))
    if ends then 0 else wordLength inFlow rest + 1

/-- The further line breaks behind a word, with the spaces around them dropped; nothing if a document
    marker comes. -/
def plainBreaks : (fuel : Nat) → Cursor → Option (List Char) × Cursor
  | 0, c => (some [], c)
  | fuel + 1, c =>
    if c.seesAnyMarker then (none, c)
    else
      let c := c.skip (· == ' ')
      match c.lineBreak? with
      | none => (some [], c)
      | some (x, c) =>
        match plainBreaks fuel c with
        | (some xs, c) => (some (x :: xs), c)
        | (none, c) => (none, c)

/-- What stands between two words of a plain scalar: nothing if the scalar ends here. The flag tells whether a
    line ended. -/
def plainGap (c : Cursor) : List Char × Bool × Cursor :=
  let (spaces, c) := c.span (· == ' ')
  match c.lineBreak? with
  | none => (spaces, false, c)
  | some (x, c) =>
    match plainBreaks c.fuel c with
    | (some xs, c) => (foldBreaks x xs, true, c)
    | (none, c) => ([], true, c)

/-- A plain scalar of which `gap` stands before the next word. The flag tells whether the last thing passed was the
    end of a line. -/
def plainWords (inFlow : Bool) (indent : Int) : (fuel : Nat) → (gap : List Char) → (ended : Bool) → Cursor →
    List Char × Bool × Cursor
  | 0, _, ended, c => ([], ended, c)
  | fuel + 1, gap, ended, c =>
    let n := if c.peek = some '#' then 0 else wordLength inFlow c.rest
    if n = 0 then ([], ended, c)
    else
      let word := gap ++ c.rest.take n
      let (gap, ended, c) := plainGap (c.advance n)
      if gap.isEmpty || c.peek = some '#' || (!inFlow && (c.column : Int) < indent) then (word, ended, c)
      else
        let (words, ended, c) := plainWords inFlow indent fuel gap ended c
        (word ++ words, ended, c)

/-- A plain scalar whose further lines have at least the given indentation. -/
def plain (inFlow : Bool) (indent : Int) (c : Cursor) : List Char × Bool × Cursor :=
  plainWords inFlow indent c.fuel [] false c

/-! ## Block scalars -/

/-- What happens to the line breaks at the end of a block scalar. -/
inductive Chomping where
  /-- All are dropped. -/
  | strip
  /-- The first one stays. -/
  | clip
  /-- All stay. -/
  | keep
  deriving Repr, DecidableEq

/-- The chomping that a sign asks for. -/
def chomping? : Char → Option Chomping
  | '+' => some .keep
  | '-' => some .strip
  | _ => none

/-- A sign of chomping, if one comes next. -/
def chompingSign (c : Cursor) : Option Chomping × Cursor :=
  match c.peek.bind chomping? with
  | some k => (some k, c.next)
  | none => (none, c)

/-- An indentation in one digit, if one comes next; zero is refused. -/
def indentSign (c : Cursor) : Read (Option Nat) :=
  match c.peek with
  | some x =>
    if isAsciiDigit x then
      if x = '0' then .error (.malformed .badBlockHeader) else .ok (some (ofDigits [x]), c.next)
    else .ok (none, c)
  | none => .ok (none, c)

/-- The signs in the header of a block scalar, in either order. -/
def blockSigns (c : Cursor) : Read (Chomping × Option Nat) :=
  match chompingSign c with
  | (some k, c) => (indentSign c).map fun r => ((k, r.1), r.2)
  | (none, c) =>
    match indentSign c with
    | .error e => .error e
    | .ok (some n, c) => let (k, c) := chompingSign c; .ok ((k.getD .clip, some n), c)
    | .ok (none, c) => .ok ((.clip, none), c)

/-- The header of a block scalar, behind its first sign: the signs, an optional comment, the line break. -/
def blockHeader (c : Cursor) : Read (Chomping × Option Nat) :=
  match blockSigns c with
  | .error e => .error e
  | .ok (signs, c) =>
    if c.seesEnd || c.peek = some ' ' then
      let c := (c.skip (· == ' ')).skipComment
      if c.seesEnd then .ok (signs, (c.lineBreak?.map Prod.snd).getD c)
      else .error (.malformed .badBlockHeader)
    else .error (.malformed .badBlockHeader)

/-- The empty lines before the first line of a block scalar, and the deepest column that their spaces reach. -/
def leadingBreaks : (fuel : Nat) → (deepest : Nat) → Cursor → List Char × Nat × Cursor
  | 0, deepest, c => ([], deepest, c)
  | fuel + 1, deepest, c =>
    if c.peek = some ' ' then leadingBreaks fuel (max deepest c.next.column) c.next
    else
      match c.lineBreak? with
      | some (x, c) =>
        let (xs, deepest, c) := leadingBreaks fuel deepest c
        (x :: xs, deepest, c)
      | none => ([], deepest, c)

/-- The place behind spaces, but not beyond a column. -/
def skipIndent (indent : Nat) : (fuel : Nat) → Cursor → Cursor
  | 0, c => c
  | fuel + 1, c => if c.column < indent ∧ c.peek = some ' ' then skipIndent indent fuel c.next else c

/-- The empty lines before the next line of a block scalar. -/
def blockBreaks (indent : Nat) : (fuel : Nat) → Cursor → List Char × Cursor
  | 0, c => ([], c)
  | fuel + 1, c =>
    let c := skipIndent indent c.fuel c
    match c.lineBreak? with
    | some (x, c) =>
      let (xs, c) := blockBreaks indent fuel c
      (x :: xs, c)
    | none => ([], c)

/-- The lines of a block scalar from one that starts at the indentation on: the text, the last line break and
    the empty lines behind it. -/
def blockLines (folded : Bool) (indent : Nat) : (fuel : Nat) → Cursor →
    List Char × List Char × List Char × Cursor
  | 0, c => ([], [], [], c)
  | fuel + 1, c =>
    let startsPlain := !c.sees isSpaceOrTab
    let (line, c) := c.span fun x => !isBreak x
    let (ending, c) :=
      match c.lineBreak? with
      | some (x, c) => ([x], c)
      | none => ([], c)
    let (breaks, c) := blockBreaks indent c.fuel c
    if c.column = indent ∧ c.peek.isSome then
      let glue :=
        if folded && ending == ['\n'] && startsPlain && !c.sees isSpaceOrTab then
          if breaks.isEmpty then [' '] else []
        else ending
      let (text, ending, last, c) := blockLines folded indent fuel c
      (line ++ glue ++ breaks ++ text, ending, last, c)
    else (line, ending, breaks, c)

/-- A block scalar, at its first sign, below a line of the given indentation. -/
def block (folded : Bool) (parentIndent : Int) (c : Cursor) : Read (List Char) :=
  match blockHeader c.next with
  | .error e => .error e
  | .ok ((chomping, increment), c) =>
    let least := max (parentIndent + 1) 1
    let (breaks, indent, c) :=
      match increment with
      | none =>
        let (breaks, deepest, c) := leadingBreaks c.fuel 0 c
        (breaks, max least.toNat deepest, c)
      | some n =>
        let indent := least.toNat + n - 1
        let (breaks, c) := blockBreaks indent c.fuel c
        (breaks, indent, c)
    let (text, ending, last, c) :=
      if c.column = indent ∧ c.peek.isSome then
        let (text, ending, last, c) := blockLines folded indent c.fuel c
        (breaks ++ text, ending, last, c)
      else ([], [], breaks, c)
    let tail :=
      match chomping with
      | .strip => []
      | .clip => ending
      | .keep => ending ++ last
    .ok (text ++ tail, c)

end Stencil.Yaml
