import Stencil.Scope.Basic
import Stencil.Json.Parser
import Stencil.Json.Check

/-!
# `Stencil.Scope.Json` — parameters written as a JSON object

A scope can be written as a JSON object of strings: behind a file in an outline, on the command
line, and in a stored configuration. Every member has to be a string, also one whose name comes
again later; of one name the first position and the last value count.
-/

namespace Stencil.Scope

open Json

/-- The scope that an object of strings stands for. -/
def check (v : Value) : Checked Scope := (Check.textMap v).map ofList

/-- The scope that a JSON text stands for. -/
def ofJson? (text : List Char) : Option Scope :=
  match parse .strict text with
  | .error _ => none
  | .ok v =>
    match check v with
    | .ok s => some s
    | .failed _ => none

/-- The object that stands for a scope. -/
def toJson (s : Scope) : Value := .object (s.entries.map fun e => (e.1, .string e.2))

/-- Checking accepts the members that stand for a list of entries. -/
theorem textMembers_map (es : List (String × String)) :
    Check.textMembers (es.map fun e => (e.1, .string e.2)) = .ok es := by
  induction es with
  | nil => rfl
  | cons e es ih => simp [Check.textMembers, ih, Check.text, Checked.map, Checked.ap]

/-- A scope that is written out is checked back. -/
theorem check_toJson (s : Scope) : check s.toJson = .ok s := by
  simp [check, toJson, Check.textMap, textMembers_map, Checked.map]

end Stencil.Scope
