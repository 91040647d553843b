/-!
# `Stencil.Text.Blank` — white space and trimming

## Contents
- **Classes.** `isSpace` is Unicode's `White_Space` property; `isBlank` adds the four information
  separators. Outlines and placeholders go by `isBlank`, numbers are surrounded by `isSpace`.
- **Trimming.** `trim p` drops the characters of a class from both ends of a text, and nothing else.
-/

namespace Stencil.Text

/-- A space: a character with Unicode's `White_Space` property. -/
def isSpace (c : Char) : Bool :=
  let n := c.toNat
  (0x9 ≤ n && n ≤ 0xD) || n == 0x20 || n == 0x85 || n == 0xA0 || n == 0x1680
    || (0x2000 ≤ n && n ≤ 0x200A) || n == 0x2028 || n == 0x2029 || n == 0x202F || n == 0x205F
    || n == 0x3000

/-- A blank: a space or one of the information separators U+001C to U+001F. -/
def isBlank (c : Char) : Bool :=
  isSpace c || (0x1C ≤ c.toNat && c.toNat ≤ 0x1F)

/-! ## Trimming -/

/-- The text without its trailing characters of class `p`. -/
def trimEnd (p : Char → Bool) (cs : List Char) : List Char :=
  (cs.reverse.dropWhile p).reverse

/-- The text without its leading and trailing characters of class `p`. -/
def trim (p : Char → Bool) (cs : List Char) : List Char :=
  trimEnd p (cs.dropWhile p)

/-- The text without the blanks around it. -/
def strip (cs : List Char) : List Char := trim isBlank cs

@[simp] theorem trim_nil (p : Char → Bool) : trim p [] = [] := rfl

@[simp] theorem strip_nil : strip [] = [] := rfl

/-- Trimming only shortens. -/
theorem length_trim_le (p : Char → Bool) (cs : List Char) : (trim p cs).length ≤ cs.length := by
  have h₁ : ((cs.dropWhile p).reverse.dropWhile p).length ≤ (cs.dropWhile p).reverse.length :=
    (List.dropWhile_suffix p).length_le
  have h₂ : (cs.dropWhile p).length ≤ cs.length := (List.dropWhile_suffix p).length_le
  simp only [trim, trimEnd, List.length_reverse] at *
  omega

end Stencil.Text
