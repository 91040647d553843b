import Stencil.Number.Numeral
import Stencil.Number.Shortest
import Stencil.Text.Hex
import Stencil.Text.Pieces
import Stencil.Yaml.Scalar
import Stencil.Yaml.Moment

/-!
# `Stencil.Yaml.Datum` — the values of scalars

## Contents
- **Values.** A scalar stands for null, a truth value, a number, a moment or a text. Only plain
  scalars are looked at (`Datum.ofPlain`); a quoted or block scalar is a text whatever it holds.
- **Numbers.** Integers are decimal, octal behind a zero, hexadecimal, binary or in base sixty;
  underscores are passed over. Other numbers need a point, and a sign in their exponent.
- **Text and equality.** `Datum.toText?` is how a value is written into a parameter, unless it is an
  integer of too many digits. Keys are compared as values (`Datum.same`), so that one and one point
  zero are one key.
-/

namespace Stencil.Yaml

open Number Text

/-- The value of a scalar. -/
inductive Datum where
  /-- Nothing. -/
  | null
  /-- A truth value. -/
  | bool (b : Bool)
  /-- An integer. -/
  | int (n : Int)
  /-- Any other number. -/
  | float (d : Double)
  /-- A date or a point in time. -/
  | moment (m : Moment)
  /-- A text, or code points that are none. -/
  | text (p : CodePoints)
  deriving Repr, DecidableEq

namespace Datum

/-! ## Words -/

/-- A word in small letters, with a capital, and in capitals. -/
def spellings (word : String) : List String :=
  let cs := word.toList
  let capital (c : Char) : Char := Char.ofNat (c.toNat - 0x20)
  [word, String.ofList (cs.take 1 |>.map capital) ++ String.ofList (cs.drop 1), String.ofList (cs.map capital)]

/-- The truth value that a word names. -/
def boolWord? (s : String) : Option Bool :=
  if ["yes", "true", "on"].any fun w => s ∈ spellings w then some true
  else if ["no", "false", "off"].any fun w => s ∈ spellings w then some false
  else none

/-- Whether a plain scalar stands for nothing. -/
def isNull (s : String) : Bool := s == "" || s == "~" || (spellings "null").contains s

/-! ## Integers -/

/-- A text without its underscores. -/
def dropBars (cs : List Char) : List Char := cs.filter (· != '_')

/-- Digits of base sixty behind the first: one decimal digit, or two of which the first is at most five. -/
def isSixtieth : List Char → Bool
  | [d] => isAsciiDigit d
  | [t, d] => isAsciiDigit t && t.toNat ≤ 0x35 && isAsciiDigit d
  | _ => false

/-- The value of digits in a base. -/
def inBase (base : Nat) (digits : List Nat) : Nat := digits.foldl (fun n d => n * base + d) 0

/-- The value of digits behind the mark of a base; there have to be some besides underscores. -/
def marked (base : Nat) (cs : List Char) : Except BadValue Nat :=
  let digits := dropBars cs
  if digits.isEmpty then .error (.noDigits base) else .ok (inBase base (digits.filterMap hexValue?))

/-- The value of decimal digits with underscores among them. -/
def decimal (cs : List Char) : Except BadValue Nat :=
  let digits := dropBars cs
  if maxDigits < digits.length then .error (.tooManyDigits digits.length) else .ok (ofDigits digits)

/-- The magnitude of what looks like an integer. -/
def magnitude? (cs : List Char) : Option (Except BadValue Nat) :=
  match cs with
  | ['0'] => some (.ok 0)
  | '0' :: 'b' :: ds =>
    if !ds.isEmpty && ds.all (fun c => c == '0' || c == '1' || c == '_') then some (marked 2 ds) else none
  | '0' :: 'x' :: ds =>
    if !ds.isEmpty && ds.all (fun c => (hexValue? c).isSome || c == '_') then some (marked 16 ds) else none
  | '0' :: ds =>
    if ds.all fun c => c == '_' || (0x30 ≤ c.toNat && c.toNat ≤ 0x37) then
      some (.ok (inBase 8 ((dropBars ds).filterMap hexValue?)))
    else none
  | d :: _ =>
    if !isAsciiDigit d then none
    else
      match pieces ':' cs with
      | whole :: sixtieths =>
        if whole.all isDigitOrBar && sixtieths.all isSixtieth then
          some ((decimal whole).map fun n => inBase 60 (n :: sixtieths.map ofDigits))
        else none
      | [] => none
  | [] => none

/-- What looks like an integer. -/
def int? (cs : List Char) : Option (Except BadValue Int) :=
  let (negative, body) := splitSign cs
  (magnitude? body).map fun r => r.map (signed negative)

/-! ## Other numbers -/

/-- An exponent with its sign, or nothing. -/
def isExponent : List Char → Bool
  | [] => true
  | e :: s :: ds =>
    (e == 'e' || e == 'E') && (s == '+' || s == '-') && !ds.isEmpty && ds.all isAsciiDigit
  | _ => false

/-- Whether a text is a decimal numeral with a point. Without a sign the whole part may be missing. -/
def isPointed (hasSign : Bool) (cs : List Char) : Bool :=
  let whole := cs.takeWhile isDigitOrBar
  match cs.dropWhile isDigitOrBar with
  | '.' :: rest =>
    let fraction := rest.takeWhile isDigitOrBar
    isExponent (rest.dropWhile isDigitOrBar)
      && (if whole.isEmpty then !hasSign && fraction.head?.any isAsciiDigit
          else whole.head?.any isAsciiDigit)
  | _ => false

/-- The value of a decimal numeral. -/
def pointed (cs : List Char) : Double := (decimal? false (dropBars cs)).getD .nan

/-- The value of a numeral in base sixty with a point, from its places. What the first one is worth has to be a
    finite double. -/
def sixtyDouble (places : List Double) : Except BadValue Double :=
  match Double.ofInt (Nat.pow 60 (places.length - 1)) with
  | .infinite _ => .error .beyondDouble
  | _ =>
    .ok (places.reverse.foldl
      (fun (acc : Double × Int) d => (acc.1.add (d.mul (.ofInt acc.2)), acc.2 * 60))
      (Double.zero false, 1)).1

/-- What looks like a numeral in base sixty with a point. -/
def sixty? (cs : List Char) : Option (Except BadValue Double) :=
  match pieces ':' (cs.takeWhile (· != '.')), cs.dropWhile (· != '.') with
  | whole :: next :: more, '.' :: fraction =>
    if whole.head?.any isAsciiDigit && whole.all isDigitOrBar && (next :: more).all isSixtieth
        && fraction.all isDigitOrBar then
      some (sixtyDouble ((pieces ':' cs).map pointed))
    else none
  | _, _ => none

/-- What looks like a number with a point, or the name of a value without a numeral. -/
def float? (cs : List Char) : Option (Except BadValue Double) :=
  let hasSign := cs.head?.any fun c => c == '+' || c == '-'
  let (negative, body) := splitSign cs
  let withSign (d : Double) : Double := if negative then d.neg else d
  let name := String.ofList (body.drop 1)
  if body.head? = some '.' ∧ name ∈ spellings "inf" then some (.ok (withSign (.infinite false)))
  else if cs.head? = some '.' ∧ name ∈ ["nan", "NaN", "NAN"] then some (.ok .nan)
  else if isPointed hasSign body then some (.ok (withSign (pointed body)))
  else (sixty? body).map fun r => r.map withSign

/-! ## Scalars -/

/-- A value that may be bad. -/
def checked {α : Type} (f : α → Datum) : Except BadValue α → Except Fault Datum
  | .ok a => .ok (f a)
  | .error v => .error (.badValue v)

/-- The value of a plain scalar. The words that stand for a merge and for a default are of kinds that have
    no value. -/
def ofPlain (s : String) : Except Fault Datum :=
  let cs := s.toList
  if isNull s then .ok .null
  else
    match boolWord? s, float? cs, int? cs, Moment.shape? cs with
    | some b, _, _, _ => .ok (.bool b)
    | none, some d, _, _ => checked .float d
    | none, none, some n, _ => checked .int n
    | none, none, none, some m => checked .moment m.check
    | none, none, none, none =>
      if s = "=" ∨ s = "<<" then .error (.malformed .unknownKind) else .ok (.text (.ofString s))

/-- The value of a scalar. -/
def ofScalar : Scalar → Except Fault Datum
  | .plain s => ofPlain s
  | .styled p => .ok (.text p)

/-- The text of a value, or the code points that it consists of. -/
def toText? : Datum → Option CodePoints
  | .null => some (.ofString "None")
  | .bool b => some (.ofString (if b then "True" else "False"))
  | .int n => if isWritable n then some (.ofString (toString n)) else none
  | .float d => some (.ofString (d.text plainLayout))
  | .moment m => some (.ofString m.text)
  | .text p => some p

/-- The integer that a truth value or an integer is. -/
def asInt? : Datum → Option Int
  | .bool b => some (if b then 1 else 0)
  | .int n => some n
  | _ => none

/-- Whether two values are the same key. -/
def same (a b : Datum) : Bool :=
  match a, b with
  | .null, .null => true
  | .text s, .text t => s == t
  | .moment m, .moment n => m.same n
  | .float d, .float e => d.numEq e || (d == .nan && e == .nan)
  | .float d, b => b.asInt?.isSome && d.toInt? == b.asInt?
  | a, .float e => a.asInt?.isSome && e.toInt? == a.asInt?
  | a, b => a.asInt?.isSome && a.asInt? == b.asInt?

end Datum

end Stencil.Yaml
