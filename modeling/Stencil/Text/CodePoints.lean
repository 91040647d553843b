import Stencil.Text.Hex
import Stencil.Text.Surrogate

/-!
# `Stencil.Text.CodePoints` — code points that need not be a text

## Contents
- **Code points.** An escape can name half of a surrogate pair, which is a code point but no character.
  `CodePoints` is what such escapes and other characters make: equal only if they are equal point by
  point, even if they are shown alike.
- **Texts.** `toString?` is the text that they are, if no half is among them.
- **Showing.** `joined` puts halves that make a pair together. In `shown` and `inBytes` each half is
  replaced by U+FFFD: one that is left without its pair once, or every one as often as it has bytes.
- **Writing.** `unwritable?` finds the first halves, which no file can hold.
-/

namespace Stencil.Text

/-- A sequence of code points; halves of surrogate pairs may be among them. -/
structure CodePoints where
  /-- The code points. -/
  points : List Nat
  deriving Repr, DecidableEq, Inhabited

namespace CodePoints

/-- Whether a code point is half of a surrogate pair. -/
def isHalf (n : Nat) : Bool := isHighSurrogate n || isLowSurrogate n

/-- The code points of characters. -/
def ofList (cs : List Char) : CodePoints := ⟨cs.map Char.toNat⟩

/-- The code points of a text. -/
def ofString (s : String) : CodePoints := ofList s.toList

/-- The text that the code points are, if they are one. -/
def toString? (p : CodePoints) : Option String :=
  if p.points.any isHalf then none else some (String.ofList (p.points.map Char.ofNat))

/-- Puts halves together that make a pair. -/
def joinPairs : List Nat → List Nat
  | n :: m :: ns =>
    if isHighSurrogate n && isLowSurrogate m then ofPair n m :: joinPairs ns else n :: joinPairs (m :: ns)
  | ns => ns

/-- The same with the halves put together that make a pair. -/
def joined (p : CodePoints) : CodePoints := ⟨joinPairs p.points⟩

/-- The character that stands for what is no text. -/
def replacement : Char := '\ufffd'

/-- The character that stands in for a code point. -/
def standInFor (n : Nat) : Char := if isHalf n then replacement else Char.ofNat n

/-- The text in which pairs are put together and a character stands in for each half that is left. -/
def shown (p : CodePoints) : String := String.ofList (p.joined.points.map standInFor)

/-- The text that is left of the code points if they are written as bytes and read back: each half takes three bytes,
    none of which is part of a text. -/
def inBytes (p : CodePoints) : String :=
  String.ofList (p.points.flatMap fun n => List.replicate (if isHalf n then 3 else 1) (standInFor n))

/-- Halves side by side that cannot be written as bytes, and the position of the first of them. -/
structure Unwritable where
  /-- The position. -/
  start : Nat
  /-- The halves, at least one. -/
  halves : List Nat
  deriving Repr, DecidableEq

/-- The first halves that cannot be written; of some halves the class `isBad` tells that they cannot. -/
def unwritable? (isBad : Nat → Bool) (p : CodePoints) : Option Unwritable :=
  match p.points.dropWhile (!isBad ·) with
  | [] => none
  | rest => some ⟨p.points.length - rest.length, rest.takeWhile isHalf⟩

/-- Names the single half, or the range of positions of several. -/
def Unwritable.message (u : Unwritable) : String :=
  let stretch :=
    match u.halves with
    | [n] => "character '\\u" ++ String.ofList (hexDigits 4 n) ++ "' in position " ++ toString u.start
    | ns => "characters in position " ++ toString u.start ++ "-" ++ toString (u.start + ns.length - 1)
  "'utf-8' codec can't encode " ++ stretch ++ ": surrogates not allowed"

/-- The code point of a character is no half. -/
theorem isHalf_toNat (c : Char) : isHalf c.toNat = false := by
  have := not_surrogate_toNat c
  simp [isHalf, this.1, this.2]

/-- The code points of a text are that text. -/
@[simp] theorem toString?_ofString (s : String) : (ofString s).toString? = some s := by
  have h : (s.toList.map Char.toNat).any isHalf = false := by simp [isHalf_toNat]
  simp [toString?, ofString, ofList, h, Function.comp_def]

/-- Characters are put together as they are. -/
theorem joinPairs_map_toNat (cs : List Char) : joinPairs (cs.map Char.toNat) = cs.map Char.toNat := by
  induction cs with
  | nil => rfl
  | cons c cs ih =>
    cases cs with
    | nil => rfl
    | cons d ds =>
      have := not_surrogate_toNat c
      rw [List.map_cons, List.map_cons] at *
      unfold joinPairs
      rw [ih]
      simp [this.1]

/-- A text has nothing to be put together. -/
@[simp] theorem joined_ofString (s : String) : (ofString s).joined = ofString s := by
  simp [joined, ofString, ofList, joinPairs_map_toNat]

@[simp] theorem standInFor_toNat (c : Char) : standInFor c.toNat = c := by
  simp [standInFor, isHalf_toNat]

/-- Nothing is replaced in a text. -/
@[simp] theorem shown_ofString (s : String) : (ofString s).shown = s := by
  rw [shown, joined_ofString]
  simp [ofString, ofList, Function.comp_def]

@[simp] theorem inBytes_ofString (s : String) : (ofString s).inBytes = s := by
  simp [inBytes, ofString, ofList, isHalf_toNat, List.flatMap_map]

/-- Half of a pair is no text, and two halves in a row are not the character that they stand for. -/
example : toString? ⟨[0xD83D, 0xDE00]⟩ = none ∧ toString? (joined ⟨[0xD83D, 0xDE00]⟩) = some "😀" := by
  decide +kernel

end CodePoints

end Stencil.Text
