import Stencil.Console.Event

/-!
# `Stencil.Console.Plain` — events as lines of plain text

A terminal without colours shows an event as lines of text. Tags are left out, an escaped bracket is
shown as a bracket, and a tree is indented by two spaces a level.
-/

namespace Stencil.Console

open Text

/-- Marked-up text without its tags. `inTag` tells whether a tag is open. -/
def withoutTags : (inTag : Bool) → List Char → List Char
  | _, [] => []
  | true, c :: cs => withoutTags (c != ']') cs
  | false, '\\' :: '[' :: cs => '[' :: withoutTags false cs
  | false, '[' :: c :: cs => if isTagStart c then withoutTags true cs else '[' :: withoutTags false (c :: cs)
  | false, c :: cs => c :: withoutTags false cs

/-- The plain text of marked-up text. -/
def plainText (markup : String) : String := String.ofList (withoutTags false markup.toList)

namespace LabelTree

mutual

/-- The lines of a tree behind an indentation. -/
def lines (indent : String) : LabelTree → List String
  | .node label children => (indent ++ plainText label) :: linesAll (indent ++ "  ") children

/-- The lines of several trees. -/
def linesAll (indent : String) : List LabelTree → List String
  | [] => []
  | t :: ts => lines indent t ++ linesAll indent ts

end

end LabelTree

/-- The lines of an event. -/
def Event.lines : Event → List String
  | .blank => [""]
  | .text markup => [plainText markup]
  | .progress what => [plainText what.markup]
  | .rule title _ => ["--" ++ plainText title ++ "--"]
  | .tree labels => labels.lines ""
  | .table title rows => title :: rows.map fun r => r.1 ++ ": " ++ r.2

/-- Tags vanish, an escaped bracket stays. -/
example : plainText "[dim]a \\[b][/dim]" = "a [b]" := by decide +kernel

end Stencil.Console
