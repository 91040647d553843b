import Stencil.Json.Value
import Stencil.Number.Numeral

/-!
# `Stencil.Json.Check` — checking values field by field

## Contents
- **Results.** `Checked α` is a value of type `α` or all the issues that stand in its way. Checks
  are combined so that the issues of every part are kept, in the order of the parts.
- **Places.** An `Issue` has a place: the member names and item numbers that lead to it.
- **Checks.** One function for each kind of field: `text`, `textMap`, `natural`, `flag`, `listOf`,
  and `record` for an object, with `required` and `optional` members.
-/

namespace Stencil.Json

open Number

/-- A step from a value to a part of it. -/
inductive Step where
  /-- The member with this name. -/
  | name (s : String)
  /-- The item with this number. -/
  | item (n : Nat)
  deriving Repr, DecidableEq

/-- What can be wrong with a value. -/
inductive Problem where
  /-- The text is no JSON. -/
  | notJson
  /-- A required member is missing. -/
  | missing
  /-- No object where a record is expected. -/
  | notRecord
  /-- No object where a map is expected. -/
  | notMap
  /-- No array. -/
  | notList
  /-- No string. -/
  | notText
  /-- No string where a path is expected. -/
  | notPath
  /-- None of the values of an enumeration. -/
  | notListed
  /-- No integer. -/
  | notInteger
  /-- Text that does not read as an integer. -/
  | unreadableInteger
  /-- An integer of too many digits. -/
  | oversizedInteger
  /-- A number with a fraction where an integer is expected. -/
  | fractional
  /-- A value without a numeral where an integer is expected. -/
  | notFinite
  /-- A number below the least value. -/
  | tooSmall
  /-- No truth value. -/
  | notFlag
  /-- A text or a number that stands for no truth value. -/
  | unreadableFlag
  deriving Repr, DecidableEq

/-- The code of a problem, for reports. -/
def Problem.code : Problem → String
  | .notJson => "json_invalid"
  | .missing => "missing"
  | .notRecord => "model_type"
  | .notMap => "dict_type"
  | .notList => "list_type"
  | .notText => "string_type"
  | .notPath => "path_type"
  | .notListed => "enum"
  | .notInteger => "int_type"
  | .unreadableInteger => "int_parsing"
  | .oversizedInteger => "int_parsing_size"
  | .fractional => "int_from_float"
  | .notFinite => "finite_number"
  | .tooSmall => "greater_than_equal"
  | .notFlag => "bool_type"
  | .unreadableFlag => "bool_parsing"

/-- A problem and its place. -/
structure Issue where
  /-- The steps that lead to the value. -/
  place : List Step
  /-- What is wrong with it. -/
  problem : Problem
  deriving Repr, DecidableEq

/-- A value, or what is wrong with its source. -/
inductive Checked (α : Type) where
  /-- The value. -/
  | ok (a : α)
  /-- Everything that is wrong, in order. -/
  | failed (issues : List Issue)
  deriving Repr

namespace Checked

variable {α β : Type}

/-- One problem with the value itself. -/
def problem (p : Problem) : Checked α := .failed [⟨[], p⟩]

/-- Applies a function to the value. -/
def map (f : α → β) : Checked α → Checked β
  | .ok a => .ok (f a)
  | .failed is => .failed is

/-- Applies a checked function; the issues of the function come first. -/
def ap : Checked (α → β) → Checked α → Checked β
  | .ok f, .ok a => .ok (f a)
  | .ok _, .failed is => .failed is
  | .failed is, .ok _ => .failed is
  | .failed is, .failed js => .failed (is ++ js)

instance : Applicative Checked where
  pure := .ok
  map := map
  seq f a := ap f (a ())

/-- Issues of a part are issues of the whole one step further down. -/
def within (s : Step) : Checked α → Checked α
  | .ok a => .ok a
  | .failed is => .failed (is.map fun i => { i with place := s :: i.place })

/-- The value, if nothing is wrong. -/
def toExcept : Checked α → Except (List Issue) α
  | .ok a => .ok a
  | .failed is => .error is

@[simp] theorem within_ok (s : Step) (a : α) : within s (.ok a) = .ok a := rfl

end Checked

namespace Check

variable {α : Type}

/-! ## Texts -/

/-- A string. -/
def text : Value → Checked String
  | .string s => .ok s
  | _ => .problem .notText

/-- The members of an object whose values are all strings, repeated names included. -/
def textMembers : List (String × Value) → Checked (List (String × String))
  | [] => .ok []
  | (name, v) :: ms =>
    (Checked.map (fun s es => (name, s) :: es) ((text v).within (.name name))).ap (textMembers ms)

/-- An object of strings. -/
def textMap : Value → Checked (List (String × String))
  | .object ms => textMembers ms
  | _ => .problem .notMap

/-- Null, or what another check accepts. -/
def nullable (check : Value → Checked α) : Value → Checked (Option α)
  | .null => .ok none
  | v => (check v).map some

/-! ## Numbers and flags -/

/-- The greatest integer of 64 bits with a sign. -/
def maxWord : Int := 0x7FFFFFFFFFFFFFFF

/-- The integer that a double is. It has to be nearer to zero than either end of the range of 64 bits. -/
def wordOfDouble : Double → Checked Int
  | .nan => .problem .notFinite
  | .infinite _ => .problem .notFinite
  | d =>
    match d.toInt? with
    | none => .problem .fractional
    | some n => if n.natAbs ≤ maxWord then .ok n else .problem .oversizedInteger

/-- An integer, or what stands for one: a truth value, a number without a fraction, or text. -/
def integer : Value → Checked Int
  | .int n => .ok n
  | .bool b => .ok (if b then 1 else 0)
  | .float d => wordOfDouble d
  | .string s =>
    match fieldInteger s.toList with
    | .ok n => .ok n
    | .error .malformed => .problem .unreadableInteger
    | .error (.tooLong _) => .problem .oversizedInteger
  | _ => .problem .notInteger

/-- An integer that is at least `least`. -/
def atLeast (least : Nat) (v : Value) : Checked { n : Nat // least ≤ n } :=
  match integer v with
  | .failed is => .failed is
  | .ok n => if h : least ≤ n.toNat ∧ 0 ≤ n then .ok ⟨n.toNat, h.1⟩ else .problem .tooSmall

/-- The words for the truth values. -/
def flagWord? (word : String) : Option Bool :=
  if word ∈ ["0", "off", "f", "false", "n", "no"] then some false
  else if word ∈ ["1", "on", "t", "true", "y", "yes"] then some true
  else none

/-- The truth value that an integer stands for. -/
def flagOfInt (n : Int) : Checked Bool :=
  if n = 0 then .ok false
  else if n = 1 then .ok true
  else if -(maxWord + 1) ≤ n ∧ n ≤ maxWord then .problem .unreadableFlag
  else .problem .notFlag

/-- A truth value, or what stands for one: the numbers zero and one, or a word in any ASCII case. -/
def flag : Value → Checked Bool
  | .bool b => .ok b
  | .int n => flagOfInt n
  | .float d =>
    match wordOfDouble d with
    | .ok n => flagOfInt n
    | .failed _ => .problem .notFlag
  | .string s =>
    match flagWord? (String.ofList (s.toList.map lowerAscii)) with
    | some b => .ok b
    | none => .problem .unreadableFlag
  | _ => .problem .notFlag

/-! ## Lists and records -/

/-- The items from number `n` on, each checked. -/
def itemsFrom (check : Value → Checked α) : Nat → List Value → Checked (List α)
  | _, [] => .ok []
  | n, v :: vs =>
    (Checked.map (fun a as => a :: as) ((check v).within (.item n))).ap (itemsFrom check (n + 1) vs)

/-- An array whose items are all accepted. -/
def listOf (check : Value → Checked α) : Value → Checked (List α)
  | .array vs => itemsFrom check 0 vs
  | _ => .problem .notList

/-- An object, whose members are checked. -/
def record (check : List (String × Value) → Checked α) : Value → Checked α
  | .object ms => check ms
  | _ => .problem .notRecord

/-- A member that has to be there. -/
def required (name : String) (check : Value → Checked α) (ms : List (String × Value)) : Checked α :=
  match Value.member? name ms with
  | some v => (check v).within (.name name)
  | none => Checked.within (.name name) (.problem .missing)

/-- A member that has a value if it is left out. -/
def optional (name : String) (default : α) (check : Value → Checked α) (ms : List (String × Value)) :
    Checked α :=
  match Value.member? name ms with
  | some v => (check v).within (.name name)
  | none => .ok default

/-- Items that are written one by one are checked back. -/
theorem listOf_map {check : Value → Checked α} {write : α → Value} {as : List α}
    (h : ∀ a ∈ as, check (write a) = .ok a) : listOf check (.array (as.map write)) = .ok as := by
  have hfrom : ∀ n, itemsFrom check n (as.map write) = .ok as := by
    induction as with
    | nil => exact fun _ => rfl
    | cons a as ih =>
      intro n
      rw [List.map_cons, itemsFrom, h a List.mem_cons_self, ih (fun b hb => h b (List.mem_cons_of_mem a hb)) (n + 1)]
      rfl
  exact hfrom 0

theorem required_eq_ok {name : String} {check : Value → Checked α} {ms : List (String × Value)} {v : Value} {a : α}
    (hv : Value.member? name ms = some v) (ha : check v = .ok a) : required name check ms = .ok a := by
  rw [required, hv]
  simp only [ha, Checked.within_ok]

theorem optional_eq_ok {name : String} {default : α} {check : Value → Checked α} {ms : List (String × Value)}
    {v : Value} {a : α} (hv : Value.member? name ms = some v) (ha : check v = .ok a) :
    optional name default check ms = .ok a := by
  rw [optional, hv]
  simp only [ha, Checked.within_ok]

end Check

end Stencil.Json
