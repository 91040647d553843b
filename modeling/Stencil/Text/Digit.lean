/-!
# `Stencil.Text.Digit` — decimal digits of all scripts

Unicode's category `Nd` consists of runs of ten characters with the values zero to nine. `digitRuns`
lists where the runs start and how many characters they have; `digitValue?` reads a value off them.
-/

namespace Stencil.Text

/-- First code point and length of each stretch of decimal digits (Unicode category `Nd`). -/
def digitRuns : List (Nat × Nat) := [
  (0x30, 10), (0x660, 10), (0x6F0, 10), (0x7C0, 10), (0x966, 10), (0x9E6, 10), (0xA66, 10),
  (0xAE6, 10), (0xB66, 10), (0xBE6, 10), (0xC66, 10), (0xCE6, 10), (0xD66, 10), (0xDE6, 10),
  (0xE50, 10), (0xED0, 10), (0xF20, 10), (0x1040, 10), (0x1090, 10), (0x17E0, 10), (0x1810, 10),
  (0x1946, 10), (0x19D0, 10), (0x1A80, 10), (0x1A90, 10), (0x1B50, 10), (0x1BB0, 10), (0x1C40, 10),
  (0x1C50, 10), (0xA620, 10), (0xA8D0, 10), (0xA900, 10), (0xA9D0, 10), (0xA9F0, 10), (0xAA50, 10),
  (0xABF0, 10), (0xFF10, 10), (0x104A0, 10), (0x10D30, 10), (0x11066, 10), (0x110F0, 10),
  (0x11136, 10), (0x111D0, 10), (0x112F0, 10), (0x11450, 10), (0x114D0, 10), (0x11650, 10),
  (0x116C0, 10), (0x11730, 10), (0x118E0, 10), (0x11950, 10), (0x11C50, 10), (0x11D50, 10),
  (0x11DA0, 10), (0x16A60, 10), (0x16AC0, 10), (0x16B50, 10), (0x1D7CE, 50), (0x1E140, 10),
  (0x1E2F0, 10), (0x1E950, 10), (0x1FBF0, 10)
]

/-- The value of a decimal digit of any script. -/
def digitValue? (c : Char) : Option Nat :=
  (digitRuns.find? fun run => run.1 ≤ c.toNat && c.toNat < run.1 + run.2).map fun run =>
    (c.toNat - run.1) % 10

/-- Whether the character is one of the ten ASCII digits. -/
def isAsciiDigit (c : Char) : Bool := 0x30 ≤ c.toNat && c.toNat ≤ 0x39

/-- The number written by a run of ASCII digits, the most significant one first. -/
def ofDigits (cs : List Char) : Nat := cs.foldl (fun n c => n * 10 + (c.toNat - 0x30)) 0

/-- An ASCII digit has the value that its code point says. -/
theorem digitValue?_of_isAsciiDigit {c : Char} (h : isAsciiDigit c = true) :
    digitValue? c = some (c.toNat - 0x30) := by
  simp only [isAsciiDigit, Bool.and_eq_true, decide_eq_true_eq] at h
  have : (c.toNat - 0x30) % 10 = c.toNat - 0x30 := Nat.mod_eq_of_lt (by omega)
  have h₂ : c.toNat < 0x30 + 10 := by omega
  simp [digitValue?, digitRuns, h.1, h₂, this]

/-- The first run is ASCII's. -/
example : digitValue? '7' = some 7 := by decide

/-- The digits of other scripts count too. -/
example : digitValue? '٣' = some 3 := by decide

/-- A superscript is no decimal digit. -/
example : digitValue? '²' = none := by decide

end Stencil.Text
