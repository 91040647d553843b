import Stencil.Yaml.Scalar

/-!
# `Stencil.Yaml.Token` — the tokens of a YAML text

## Contents
- **Tokens.** Scalars, the brackets and separators of flow collections, and the starts and ends of
  block collections, which the text shows by indentation only.
- **Scanning.** `Token.ofText` reads a text from left to right. A `Scanner` holds the place, the
  tokens so far, the columns of the open block collections and, for each level of flow collections,
  the last token that may turn out to be a key.

A key is recognised only at the colon behind it. The tokens that open a mapping and announce the key
are then put in before it; the key has to be on the same line and at most 1024 characters long.

Where the form of the text is broken, there are no tokens at all. Where something has the right form
and stands for nothing, the tokens end with `Token.fault`: what comes before it counts first.
-/

namespace Stencil.Yaml

/-- A token. -/
inductive Token where
  /-- The directive for a version of the format. -/
  | version (major : Nat)
  /-- Any other directive. -/
  | directive
  /-- Three dashes, which start a document. -/
  | documentStart
  /-- Three dots, which end a document. -/
  | documentEnd
  /-- The start of a list shown by indentation. -/
  | blockListStart
  /-- The start of a mapping shown by indentation. -/
  | blockMappingStart
  /-- The end of either. -/
  | blockEnd
  /-- An opening bracket. -/
  | flowListStart
  /-- A closing bracket. -/
  | flowListEnd
  /-- An opening brace. -/
  | flowMappingStart
  /-- A closing brace. -/
  | flowMappingEnd
  /-- The dash before an item. -/
  | item
  /-- The comma between items. -/
  | comma
  /-- What announces a key: a question mark, or nothing. -/
  | key
  /-- The colon before a value. -/
  | value
  /-- An alias. -/
  | alias
  /-- A scalar. -/
  | scalar (s : Scalar)
  /-- The end of what can be read, because of what is bad behind it. -/
  | fault (v : BadValue)
  deriving Repr, DecidableEq

/-- The last token at a level that may turn out to be a key. -/
structure Candidate where
  /-- How many tokens are before it. -/
  position : Nat
  /-- Whether it has to be a key. -/
  needed : Bool
  /-- How many characters are before it. -/
  index : Nat
  /-- Its line. -/
  line : Nat
  /-- Its column. -/
  column : Nat
  deriving Repr

/-- The state between two tokens. -/
structure Scanner where
  /-- The place in the text. -/
  cursor : Cursor
  /-- The tokens so far, the last one first. -/
  recent : List Token := []
  /-- How many tokens there are so far. -/
  count : Nat := 0
  /-- How many flow collections are open. -/
  flowLevel : Nat := 0
  /-- The column of the innermost open block collection, `-1` if there is none. -/
  indent : Int := -1
  /-- The columns of the block collections around it, from the inside out. -/
  outer : List Int := []
  /-- Whether a key may start here. -/
  keyAllowed : Bool := true
  /-- The candidate of each level, that of the innermost first. -/
  candidates : List (Option Candidate) := [none]
  deriving Repr

namespace Scanner

/-- Reports a flaw. -/
def refuse {α : Type} (f : Flaw) : Except Fault α := .error (.malformed f)

/-- Whether the place is outside all flow collections. -/
def inBlock (s : Scanner) : Bool := s.flowLevel == 0

/-- The tokens so far, in order. -/
def tokens (s : Scanner) : List Token := s.recent.reverse

/-- Puts a token behind the others. -/
def push (s : Scanner) (t : Token) : Scanner := { s with recent := t :: s.recent, count := s.count + 1 }

/-- Puts a token before the one with the given position. -/
def putBefore (s : Scanner) (t : Token) (position : Nat) : Scanner :=
  { s with recent := s.recent.insertIdx (s.count - position) t, count := s.count + 1 }

/-- Moves the place. -/
def moveTo (s : Scanner) (c : Cursor) : Scanner := { s with cursor := c }

/-- Puts a sign of `n` characters behind the tokens. -/
def pushSign (s : Scanner) (t : Token) (n : Nat := 1) : Scanner :=
  (s.push t).moveTo (s.cursor.advance n)

/-! ## Keys -/

/-- Forgets a candidate that is on another line or too far back. -/
def dropStale (c : Cursor) : List (Option Candidate) → Except Fault (List (Option Candidate))
  | [] => .ok []
  | none :: ks => (dropStale c ks).map (none :: ·)
  | some k :: ks =>
    if k.line ≠ c.line ∨ 1024 < c.index - k.index then
      if k.needed then refuse .missingColon else (dropStale c ks).map (none :: ·)
    else (dropStale c ks).map (some k :: ·)

/-- Forgets the candidate of the innermost level. -/
def dropCandidate (s : Scanner) : Except Fault Scanner :=
  match s.candidates with
  | some k :: ks => if k.needed then refuse .missingColon else .ok { s with candidates := none :: ks }
  | _ => .ok s

/-- Makes the next token the candidate of its level, if a key may start here. -/
def markCandidate (s : Scanner) : Except Fault Scanner :=
  if s.keyAllowed then
    match s.dropCandidate with
    | .error e => .error e
    | .ok s =>
      let k : Candidate :=
        { position := s.count
          needed := s.inBlock && s.indent == (s.cursor.column : Int)
          index := s.cursor.index
          line := s.cursor.line
          column := s.cursor.column }
      .ok { s with candidates := some k :: s.candidates.drop 1 }
  else .ok s

/-! ## Indentation -/

/-- Ends the block collections that are deeper than a column. -/
def unwindTo (column : Int) (s : Scanner) : List Int → Scanner
  | [] => s
  | around :: outer =>
    if column < s.indent then unwindTo column { s.push .blockEnd with indent := around, outer } outer else s

/-- Ends the block collections that are deeper than a column, outside flow collections. -/
def unwind (s : Scanner) (column : Int) : Scanner :=
  if s.inBlock then unwindTo column s s.outer else s

/-- Opens a block collection at a column that is deeper than the innermost one; its token goes before the token with the
    given position. -/
def openBlock (s : Scanner) (column : Nat) (t : Token) (position : Nat) : Scanner :=
  if s.indent < column then
    { s.putBefore t position with indent := column, outer := s.indent :: s.outer }
  else s

/-! ## Signs -/

/-- A marker of the start or end of a document, or the percent sign of a directive: all blocks end. -/
def endBlocks (s : Scanner) : Except Fault Scanner :=
  match (s.unwind (-1)).dropCandidate with
  | .error e => .error e
  | .ok s => .ok { s with keyAllowed := false }

/-- A marker of the start or end of a document. -/
def marker (s : Scanner) (t : Token) : Except Fault Scanner :=
  s.endBlocks.map fun s => s.pushSign t 3

/-- An opening bracket or brace. -/
def flowStart (s : Scanner) (t : Token) : Except Fault Scanner :=
  s.markCandidate.map fun s =>
    { s.pushSign t with
      flowLevel := s.flowLevel + 1, keyAllowed := true, candidates := none :: s.candidates }

/-- A closing bracket or brace. -/
def flowEnd (s : Scanner) (t : Token) : Except Fault Scanner :=
  if s.inBlock then refuse .unexpectedToken
  else
    s.dropCandidate.map fun s =>
      { s.pushSign t with
        flowLevel := s.flowLevel - 1, keyAllowed := false, candidates := s.candidates.drop 1 }

/-- A comma in a flow collection. -/
def comma (s : Scanner) : Except Fault Scanner :=
  s.dropCandidate.map fun s => { s.pushSign .comma with keyAllowed := true }

/-- The dash before an item, or the question mark before a key: `opening` starts the collection. -/
def indicator (s : Scanner) (t opening : Token) (keyAllowed : Bool) : Except Fault Scanner :=
  if s.inBlock && !s.keyAllowed then refuse .misplacedIndicator
  else
    let s := if s.inBlock then s.openBlock s.cursor.column opening s.count else s
    s.dropCandidate.map fun s => { s.pushSign t with keyAllowed }

/-- The colon before a value: behind a candidate, which becomes a key, or behind a question mark's key. -/
def colon (s : Scanner) : Except Fault Scanner :=
  match s.candidates with
  | some k :: ks =>
    let s := { s.putBefore .key k.position with candidates := none :: ks }
    let s := if s.inBlock then s.openBlock k.column .blockMappingStart k.position else s
    .ok { s.pushSign .value with keyAllowed := false }
  | _ => s.indicator .value .blockMappingStart s.inBlock

/-! ## Scalars, aliases and directives -/

/-- A quoted scalar. -/
def quotedScalar (s : Scanner) (quote : Char) : Except Fault Scanner :=
  match s.markCandidate with
  | .error e => .error e
  | .ok s =>
    (quoted quote s.cursor).map fun (text, c) =>
      { (s.push (.scalar (.styled text))).moveTo c with keyAllowed := false }

/-- A plain scalar. -/
def plainScalar (s : Scanner) : Except Fault Scanner :=
  s.markCandidate.map fun s =>
    let (text, ended, c) := plain (!s.inBlock) (s.indent + 1) s.cursor
    { (s.push (.scalar (.plain (String.ofList text)))).moveTo c with keyAllowed := ended }

/-- A block scalar. -/
def blockScalar (s : Scanner) (folded : Bool) : Except Fault Scanner :=
  match s.dropCandidate with
  | .error e => .error e
  | .ok s =>
    (block folded s.indent s.cursor).map fun (text, c) =>
      { (s.push (.scalar (.styled (.ofList text)))).moveTo c with keyAllowed := true }

/-- Whether a character can be part of the name of a directive or of an alias. -/
def isNameChar (c : Char) : Bool := c.isAlphanum || c == '-' || c == '_'

/-- Whether an alias can end before a character. -/
def endsAlias (x : Char) : Bool := "?:,]\x7d%@\x60".toList.contains x

/-- An alias, at its asterisk. -/
def aliasSign (s : Scanner) : Except Fault Scanner :=
  match s.markCandidate with
  | .error e => .error e
  | .ok s =>
    let (name, c) := s.cursor.next.span isNameChar
    if name.isEmpty || !(c.seesGap || c.sees endsAlias) then refuse .badAlias
    else .ok { (s.push .alias).moveTo c with keyAllowed := false }

/-- One of the two numerals of a version. -/
def versionPart (c : Cursor) : Read Nat :=
  let (digits, c) := c.span Text.isAsciiDigit
  if digits.isEmpty then refuse .badDirective
  else if Number.maxDigits < digits.length then .error (.badValue (.tooManyDigits digits.length))
  else .ok (Text.ofDigits digits, c)

/-- The number of a version, two numerals with a point between, behind the name of its directive. -/
def versionNumber (c : Cursor) : Read Nat :=
  match versionPart (c.skip (· == ' ')) with
  | .error e => .error e
  | .ok (major, c) =>
    if c.peek ≠ some '.' then refuse .badDirective
    else
      match versionPart c.next with
      | .error e => .error e
      | .ok (_, c) => if c.seesEnd || c.peek == some ' ' then .ok (major, c) else refuse .badDirective

/-- A directive, at its percent sign. -/
def directive (s : Scanner) : Except Fault Scanner :=
  match s.endBlocks with
  | .error e => .error e
  | .ok s =>
    let (name, c) := s.cursor.next.span isNameChar
    if name.isEmpty || !(c.seesEnd || c.peek == some ' ') then refuse .badDirective
    else if name = "YAML".toList then
      match versionNumber c with
      | .error e => .error e
      | .ok (major, c) =>
        let c := (c.skip (· == ' ')).skipComment
        if c.seesEnd then .ok ((s.push (.version major)).moveTo ((c.lineBreak?.map Prod.snd).getD c))
        else refuse .badDirective
    else
      let c := c.skip fun x => !isBreak x
      .ok ((s.push .directive).moveTo ((c.lineBreak?.map Prod.snd).getD c))

/-! ## Scanning -/

/-- Passes over spaces, comments and line breaks; behind a line break a key may start. -/
def skipGap : (fuel : Nat) → Scanner → Scanner
  | 0, s => s
  | fuel + 1, s =>
    let c := (s.cursor.skip (· == ' ')).skipComment
    match c.lineBreak? with
    | some (_, c) => skipGap fuel { s with cursor := c, keyAllowed := s.keyAllowed || s.inBlock }
    | none => s.moveTo c

/-- Whether a plain scalar can start here. -/
def startsPlain (s : Scanner) (x : Char) : Bool :=
  let special := isBreak x || isSpaceOrTab x || "-?:,[]\x7b\x7d#&*!|>'\"%@\x60".toList.contains x
  !special || (!s.cursor.seesGap 1 && (x == '-' || (s.inBlock && (x == '?' || x == ':'))))

/-- Reads the token that starts with the character `x`. -/
def token (s : Scanner) (x : Char) : Except Fault Scanner :=
  let atMargin := s.cursor.column == 0
  let apart := !s.inBlock || s.cursor.seesGap 1
  if x = '%' && atMargin then s.directive
  else if atMargin && s.cursor.seesMarker '-' then s.marker .documentStart
  else if atMargin && s.cursor.seesMarker '.' then s.marker .documentEnd
  else if x = '[' then s.flowStart .flowListStart
  else if x = '{' then s.flowStart .flowMappingStart
  else if x = ']' then s.flowEnd .flowListEnd
  else if x = '}' then s.flowEnd .flowMappingEnd
  else if x = ',' then s.comma
  else if x = '-' && s.cursor.seesGap 1 then s.indicator .item .blockListStart true
  else if x = '?' && apart then s.indicator .key .blockMappingStart s.inBlock
  else if x = ':' && apart then s.colon
  else if x = '*' then s.aliasSign
  else if x = '&' || x = '!' then .error .unsupported
  else if x = '|' && s.inBlock then s.blockScalar false
  else if x = '>' && s.inBlock then s.blockScalar true
  else if x = '\'' || x = '"' then s.quotedScalar x
  else if s.startsPlain x then s.plainScalar
  else refuse .strayCharacter

/-- Reads the next token, with the ends of block collections before it. There is none at the end of the text. -/
def step (s : Scanner) : Except Fault (Scanner × Bool) :=
  let s := skipGap s.cursor.fuel s
  match dropStale s.cursor s.candidates with
  | .error e => .error e
  | .ok candidates =>
    let s := { s with candidates }.unwind s.cursor.column
    match s.cursor.peek with
    | none => s.endBlocks.map fun s => (s, false)
    | some x => (s.token x).map fun s => (s, true)

/-- How many tokens are sure to stay as they are: those before the first one that may turn out to be a key. -/
def settled (s : Scanner) : Nat :=
  s.candidates.foldl (fun n k => (k.map fun k => min n k.position).getD n) s.count

/-- Reads the tokens up to the end of the text, or of the settled tokens before something bad. -/
def scan : (fuel : Nat) → Scanner → Except Fault (List Token)
  | 0, s => .ok s.tokens
  | fuel + 1, s =>
    match dropStale s.cursor s.candidates with
    | .error e => .error e
    | .ok candidates =>
      let s := { s with candidates }
      match s.step with
      | .error (.badValue v) => .ok (s.tokens.take s.settled ++ [.fault v])
      | .error e => .error e
      | .ok (s, more) => if more then scan fuel s else .ok s.tokens

end Scanner

/-- Whether a character may stand in a YAML text. -/
def isAllowed (c : Char) : Bool :=
  let n := c.toNat
  n == 0x9 || n == 0xA || n == 0xD || (0x20 ≤ n && n ≤ 0x7E) || n == 0x85 || (0xA0 ≤ n && n ≤ 0xFFFD)
    || 0x10000 ≤ n

/-- The tokens of a text; a byte order mark at its start is passed over. -/
def Token.ofText (text : List Char) : Except Fault (List Token) :=
  if text.all isAllowed then
    let start : Cursor := { rest := text }
    let start := if start.peek = some '\ufeff' then start.next else start
    Scanner.scan (text.length + 1) { cursor := start }
  else .error (.malformed .unprintable)

end Stencil.Yaml
