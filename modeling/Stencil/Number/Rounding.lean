/-!
# `Stencil.Number.Rounding` — rounding a quotient to the nearest integer

`roundDiv num den` is the integer nearest to `num / den`; of two that are equally near it is the
even one. Every rounding in the library goes through it: to the nearest double, to a number of
decimal places, and to the nearest point of a decimal grid.
-/

namespace Stencil.Number

/-- The integer nearest to `num / den`, the even one of two equally near. -/
def roundDiv (num den : Nat) : Nat :=
  let q := num / den
  let twice := 2 * (num % den)
  if twice < den then q
  else if den < twice then q + 1
  else if q % 2 = 0 then q
  else q + 1

/-- A half goes to the even neighbour. -/
example : roundDiv 5 2 = 2 ∧ roundDiv 7 2 = 4 ∧ roundDiv 8 3 = 3 := by decide

end Stencil.Number
