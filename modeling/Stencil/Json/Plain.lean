import Stencil.Json.Value
import Stencil.Number.Shortest
import Stencil.Text.Quoted

/-!
# `Stencil.Json.Plain` — values as plain text

A value in a table is written for people: a string as it is, other values by name or number. Inside
a list or an object, strings are quoted.
-/

namespace Stencil.Json

open Number Text

/-- The name of a truth value. -/
def flagName (b : Bool) : String := if b then "True" else "False"

namespace Value

mutual

/-- The text of a value inside another one. -/
def innerText : Value → String
  | .null => "None"
  | .bool b => flagName b
  | .int n => toString n
  | .float d => d.text plainLayout
  | .string s => quoted s
  | .array items => "[" ++ ", ".intercalate (innerTexts items) ++ "]"
  | .object members => "\x7b" ++ ", ".intercalate (memberTexts members) ++ "\x7d"

/-- The texts of values. -/
def innerTexts : List Value → List String
  | [] => []
  | v :: vs => innerText v :: innerTexts vs

/-- The texts of members. -/
def memberTexts : List (String × Value) → List String
  | [] => []
  | (name, v) :: ms => (quoted name ++ ": " ++ innerText v) :: memberTexts ms

end

/-- The text of a value. -/
def plainText : Value → String
  | .string s => s
  | v => v.innerText

end Value

end Stencil.Json
