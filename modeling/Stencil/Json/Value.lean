import Stencil.Number.Double

/-!
# `Stencil.Json.Value` — JSON values

The values that a JSON text stands for. Integers are exact, other numbers are doubles. An object
keeps its members as they were written, a repeated name included: whoever reads an object decides
what a repetition means (`Value.member?` takes the last).

There are two measures of how far a value goes down: `Value.depth` counts every array and object, and
`Value.nesting` only those that hold something, which is what a reader has to keep open.
-/

namespace Stencil.Json

open Number

/-- A JSON value. -/
inductive Value where
  /-- The null value. -/
  | null
  /-- A truth value. -/
  | bool (b : Bool)
  /-- A number without fraction and exponent. -/
  | int (n : Int)
  /-- A number with a fraction or an exponent, or one of the values without a numeral. -/
  | float (d : Double)
  /-- A string. -/
  | string (s : String)
  /-- A list of values. -/
  | array (items : List Value)
  /-- Named values, in the order in which they are written. -/
  | object (members : List (String × Value))
  deriving Inhabited

namespace Value

/-- The value of the last member with the name. -/
def member? (name : String) (members : List (String × Value)) : Option Value :=
  (members.reverse.find? (·.1 == name)).map (·.2)

@[simp] theorem member?_nil (name : String) : member? name [] = none := rfl

mutual

/-- How deeply arrays and objects are nested in a value. -/
def depth : Value → Nat
  | .array items => depthItems items + 1
  | .object members => depthMembers members + 1
  | _ => 0

/-- The greatest depth of a list of values. -/
def depthItems : List Value → Nat
  | [] => 0
  | v :: vs => max (depth v) (depthItems vs)

/-- The greatest depth of the values of members. -/
def depthMembers : List (String × Value) → Nat
  | [] => 0
  | (_, v) :: ms => max (depth v) (depthMembers ms)

end

mutual

/-- How many arrays and objects with something in them are open at the deepest place in a value. -/
def nesting : Value → Nat
  | .array items => nestingItems items
  | .object members => nestingMembers members
  | _ => 0

/-- The nesting of an array of these items. -/
def nestingItems : List Value → Nat
  | [] => 0
  | v :: vs => max (nesting v + 1) (nestingItems vs)

/-- The nesting of an object of these members. -/
def nestingMembers : List (String × Value) → Nat
  | [] => 0
  | (_, v) :: ms => max (nesting v + 1) (nestingMembers ms)

end

theorem nestingMembers_le_iff {n : Nat} {ms : List (String × Value)} :
    nestingMembers ms ≤ n ↔ ∀ m ∈ ms, m.2.nesting < n := by
  induction ms with
  | nil => simp [nestingMembers]
  | cons m ms ih => rw [nestingMembers, Nat.max_le, ih, List.forall_mem_cons, Nat.succ_le_iff]

/-- An object of strings is nested once at most. -/
theorem nestingMembers_strings (es : List (String × String)) :
    nestingMembers (es.map fun e => (e.1, .string e.2)) ≤ 1 := by
  rw [nestingMembers_le_iff]
  intro m hm
  obtain ⟨e, -, rfl⟩ := List.mem_map.mp hm
  exact Nat.zero_lt_one

end Value

end Stencil.Json
