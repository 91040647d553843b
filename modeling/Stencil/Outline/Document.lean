import Stencil.Text.Lines
import Stencil.Outline.Builder

/-!
# `Stencil.Outline.Document` — reading an outline

An outline document is read line by line. Blank lines are passed over but count: the number of a
line is its place in the document.
-/

namespace Stencil.Outline

open Text

/-- The classified lines of a document that are not blank, each with its number; the first line has the
    given number. -/
def classifyFrom : Int → List (List Char) → List (Line × Int)
  | _, [] => []
  | number, l :: ls =>
    if (strip l).isEmpty then classifyFrom (number + 1) ls
    else (Line.classify l, number) :: classifyFrom (number + 1) ls

/-- The outline that a document describes. -/
def ofText (text : List Char) : Outline :=
  (Builder.empty.addAll (classifyFrom 1 (lines text))).build

end Stencil.Outline
