import Stencil.Text.CodePoints

/-!
# `Stencil.Template.Note` — notes in file names

A file name may hold notes in parentheses, which are for the reader of the outline and not part of
the name. `erase` deletes them: from an opening parenthesis to the first closing one behind it on
the same line. The name is a list of characters, or of anything that is seen as characters.
-/

namespace Stencil.Note

open Text

variable {α : Type} (seen : α → Char)

/-- How many characters there are up to the first closing parenthesis, if it comes before the end of the
    line. -/
def length? : List α → Option Nat
  | [] => none
  | c :: cs => if seen c = ')' then some 1 else if seen c = '\n' then none else (length? cs).map (· + 1)

/-- Deletes the notes, after passing over `skip` characters of a note already found. -/
def eraseFrom : (skip : Nat) → List α → List α
  | _, [] => []
  | skip + 1, _ :: cs => eraseFrom skip cs
  | 0, c :: cs =>
    if seen c = '(' then
      match length? seen cs with
      | some n => eraseFrom n cs
      | none => c :: eraseFrom 0 cs
    else c :: eraseFrom 0 cs

/-- The name without its notes. -/
def erase (s : String) : String := String.ofList (eraseFrom id 0 s.toList)

/-- Code points without the notes among them. -/
def erasePoints (p : CodePoints) : CodePoints := ⟨eraseFrom CodePoints.standInFor 0 p.points⟩

/-- A note ends at the first closing parenthesis. -/
example : eraseFrom id 0 "a(b(c)d)e".toList = "ad)e".toList := by decide +kernel

/-- A line break keeps a note from ending. -/
example : eraseFrom id 0 "a(b\n)(c)".toList = "a(b\n)".toList := by decide +kernel

end Stencil.Note
