import Stencil.Text.Blank

/-!
# `Stencil.Text.Lines` — line breaks

## Contents
- **Breaks.** `isLineBreak` is the set of characters that end a line; CR LF counts as one break.
- **Lines.** `lines` cuts a text at its breaks; a break at the very end opens no further line.
- **Newlines.** `normalizeNewlines` writes CR LF and CR as LF, as is done when a file is read as
  text.
-/

namespace Stencil.Text

/-- The characters that end a line. U+001F is a blank that does not. -/
def isLineBreak (c : Char) : Bool :=
  let n := c.toNat
  (0xA ≤ n && n ≤ 0xD) || (0x1C ≤ n && n ≤ 0x1E) || n == 0x85 || n == 0x2028 || n == 0x2029

/-- Puts a character at the front of the first line, which is opened if there is none. -/
def consLine (c : Char) : List (List Char) → List (List Char)
  | [] => [[c]]
  | l :: ls => (c :: l) :: ls

/-- The lines of a text, without their breaks. -/
def lines : List Char → List (List Char)
  | [] => []
  | '\r' :: '\n' :: cs => [] :: lines cs
  | c :: cs => if isLineBreak c then [] :: lines cs else consLine c (lines cs)

/-- The text with each CR LF and each lone CR written as LF. -/
def normalizeNewlines : List Char → List Char
  | [] => []
  | '\r' :: '\n' :: cs => '\n' :: normalizeNewlines cs
  | c :: cs => (if c = '\r' then '\n' else c) :: normalizeNewlines cs

@[simp] theorem lines_nil : lines [] = [] := by rw [lines]

@[simp] theorem normalizeNewlines_nil : normalizeNewlines [] = [] := by rw [normalizeNewlines]

/-- A text without CR is its own normal form. -/
theorem normalizeNewlines_eq_self {cs : List Char} (h : '\r' ∉ cs) : normalizeNewlines cs = cs := by
  fun_induction normalizeNewlines cs with
  | case1 => rfl
  | case2 cs ih => simp at h
  | case3 c cs _ ih =>
    simp only [List.mem_cons, not_or] at h
    simp [ih h.2, Ne.symm h.1]

/-- Normal form holds no CR. -/
theorem not_mem_normalizeNewlines (cs : List Char) : '\r' ∉ normalizeNewlines cs := by
  fun_induction normalizeNewlines cs with
  | case1 => simp
  | case2 cs ih => simpa using ih
  | case3 c cs _ ih =>
    by_cases hc : c = '\r'
    · simpa [hc] using ih
    · simpa [hc, Ne.symm hc] using ih

end Stencil.Text
