/-!
# `Stencil.Text.Markup` — escaping for marked-up text

Printed text is marked up with tags in brackets, `[bold]` for instance. `escapeMarkup` makes a text
safe to stand between tags: a bracket that would open a tag gets a backslash in front and the
backslashes before it are doubled. A single backslash at the end is doubled too, so that it cannot
escape the tag that follows.
-/

namespace Stencil.Text

/-- Whether a character can come first in a tag. -/
def isTagStart (c : Char) : Bool :=
  (0x61 ≤ c.toNat && c.toNat ≤ 0x7A) || c == '#' || c == '/' || c == '@'

/-- Whether a text continues a tag whose opening bracket has just been passed: it is closed before another
    bracket opens. -/
def continuesTag : List Char → Bool
  | [] => false
  | c :: cs => isTagStart c && (cs.takeWhile (· != '[')).contains ']'

/-- Escapes the tags of a text that has `pending` backslashes in front of it. -/
def escapeTags : (pending : Nat) → List Char → List Char
  | pending, [] => List.replicate pending '\\'
  | pending, c :: cs =>
    if c = '\\' then escapeTags (pending + 1) cs
    else if c = '[' && continuesTag cs then
      List.replicate (2 * pending + 1) '\\' ++ c :: escapeTags 0 cs
    else List.replicate pending '\\' ++ c :: escapeTags 0 cs

/-- Doubles a single backslash at the end. -/
def doubleLast (cs : List Char) : List Char :=
  match cs.reverse with
  | '\\' :: '\\' :: _ => cs
  | '\\' :: _ => cs ++ ['\\']
  | _ => cs

/-- The text, safe to stand between tags. -/
def escapeMarkup (s : String) : String := String.ofList (doubleLast (escapeTags 0 s.toList))

/-- What looks like a tag gets a backslash; the backslashes before it are doubled. -/
example : escapeTags 0 "a\\[b]".toList = "a\\\\\\[b]".toList := by decide +kernel

/-- Capitals and digits open no tag. -/
example : escapeTags 0 "[A][1]".toList = "[A][1]".toList := by decide +kernel

end Stencil.Text
