import Stencil.Path
import Stencil.Text.Markup
import Stencil.Text.Upper

/-!
# `Stencil.Console.Event` — what a run prints

## Contents
- **Events.** An `Event` is one thing printed: an empty line, marked-up text, a progress line, a
  rule across the screen, a tree of labels or a table. How it looks on a screen is left open.
- **Messages.** Success, warning and error are texts in a colour each.
- **Steps.** A run has three steps, each announced by a rule in a colour of its own.

Marked-up text is not checked here: a text in which something stands in brackets that is no tag may be more than a
console can show. What a console has against an event is up to the host of a run.
-/

namespace Stencil.Console

open Text

/-- A tree of marked-up labels. -/
inductive LabelTree where
  /-- A label with the trees below it. -/
  | node (label : String) (children : List LabelTree)
  deriving Repr, Inhabited

/-- What a run is about to do. -/
inductive Progress where
  /-- It creates this folder. -/
  | creatingFolder (path : Path)
  /-- It makes a file from this template. -/
  | creatingFile (template : Path)
  deriving Repr, DecidableEq

/-- Something printed. -/
inductive Event where
  /-- An empty line. -/
  | blank
  /-- A line of marked-up text. -/
  | text (markup : String)
  /-- A progress line. -/
  | progress (what : Progress)
  /-- A rule with a title, in a colour. -/
  | rule (title colour : String)
  /-- A tree. -/
  | tree (labels : LabelTree)
  /-- A table of items and values. -/
  | table (title : String) (rows : List (String × String))
  deriving Repr, Inhabited

/-- Text between an opening and a closing tag. -/
def tagged (tag text : String) : String := "[" ++ tag ++ "]" ++ text ++ "[/" ++ tag ++ "]"

/-- The marked-up text of a progress line. -/
def Progress.markup : Progress → String
  | .creatingFolder path => tagged "dim" (escapeMarkup ("Creating folder: " ++ path.text))
  | .creatingFile template =>
    tagged "dim" (escapeMarkup ("Creating file from template: " ++ template.text))

/-! ## Messages -/

/-- A message of success. -/
def success (message : String) : Event := .text (tagged "bold green" message)

/-- A message about an error. -/
def error (message : String) : Event := .text (tagged "bold red" message)

/-- A warning. -/
def warning (message : String) : Event := .text (tagged "bold yellow" message)

/-- A table of items and values, with an empty line behind it. -/
def summaryTable (rows : List (String × String)) (title : String) : List Event :=
  [.table title rows, .blank]

/-! ## Steps -/

/-- The colour of a step. -/
def stepColour (step : Int) : String :=
  if step = 1 then "bright_cyan"
  else if step = 2 then "bright_green"
  else if step = 3 then "bright_blue"
  else "white"

/-- The announcement of a step: an empty line and a rule. -/
def stepHeader (step : Int) (name : String) : List Event :=
  let colour := stepColour step
  [.blank, .rule (tagged ("bold " ++ colour) (" Step " ++ toString step ++ ": " ++ upper name ++ " ")) colour]

end Stencil.Console
