import Mathlib.Data.List.TakeWhile
import Stencil.Yaml.Cursor

/-!
# `Stencil.Proofs.Yaml.Cursor` — moving in a YAML text

## Contents
- **Places.** What is left behind some characters, how many have been counted there, and which line it is.
- **Classes.** The characters of a class that come next are taken or passed over up to the first one that is not in it.
-/

namespace Stencil.Yaml.Cursor

variable {c : Cursor} {w r : List Char} {x : Char}

/-! ## Places -/

@[simp] theorem peek_zero (c : Cursor) : c.peek = c.rest.head? := List.head?_eq_getElem?.symm

@[simp] theorem rest_next (c : Cursor) : c.next.rest = c.rest.tail := by
  unfold next
  split
  · next h => rw [h, List.tail_nil]
  · next h =>
    rw [h, List.tail_cons]
    split <;> rfl

theorem index_next (h : c.rest = x :: r) : c.next.index = c.index + 1 := by
  simp only [next, h]
  split <;> rfl

theorem line_next (h : c.rest = x :: r) (hx : isBreak x = false) : c.next.line = c.line := by
  simp [next, h, hx]

theorem advance_add (c : Cursor) (m n : Nat) : c.advance (m + n) = (c.advance m).advance n := by
  induction m generalizing c with
  | zero => rw [Nat.zero_add, advance]
  | succ m ih => rw [Nat.succ_add, advance, advance, ih]

theorem rest_advance (c : Cursor) (n : Nat) : (c.advance n).rest = c.rest.drop n := by
  induction n generalizing c with
  | zero => rfl
  | succ n ih => rw [advance, ih, rest_next, List.drop_tail]

/-- What is left behind the characters that come next. -/
theorem rest_advance_append (h : c.rest = w ++ r) : (c.advance w.length).rest = r := by
  rw [rest_advance, h, List.drop_left]

theorem index_advance (h : c.rest = w ++ r) : (c.advance w.length).index = c.index + w.length := by
  induction w generalizing c with
  | nil => rfl
  | cons x w ih =>
    have hnext : c.next.rest = w ++ r := by rw [rest_next, h]; rfl
    rw [List.length_cons, advance, ih hnext, index_next h]
    omega

/-- The line stays the same if no line break is passed. -/
theorem line_advance (h : c.rest = w ++ r) (hw : ∀ x ∈ w, isBreak x = false) : (c.advance w.length).line = c.line := by
  induction w generalizing c with
  | nil => rfl
  | cons x w ih =>
    have hnext : c.next.rest = w ++ r := by rw [rest_next, h]; rfl
    rw [List.length_cons, advance, ih hnext fun y hy => hw y (List.mem_cons_of_mem x hy),
      line_next h (hw x List.mem_cons_self)]

/-! ## Classes -/

/-- The characters of a class that come next are taken up to the first one that is not in it. -/
theorem span_eq {p : Char → Bool} (h : c.rest = w ++ r) (hw : ∀ x ∈ w, p x = true) (hr : ∀ x ∈ r.head?, p x = false) :
    c.span p = (w, c.advance w.length) := by
  have htaken : c.rest.takeWhile p = w := by
    rw [h, List.takeWhile_append_of_pos hw]
    cases r with
    | nil => simp
    | cons x r => simp [hr x rfl]
  rw [span, htaken]

theorem lineBreak?_eq_none (h : ∀ x ∈ c.rest.head?, isBreak x = false) : c.lineBreak? = none := by
  rw [lineBreak?, peek_zero]
  split
  · next x hx => rw [if_neg (by simp [h x hx])]
  · rfl

theorem skip_cons_of_pos {p : Char → Bool} (h : c.rest = x :: r) (hx : p x = true) : c.skip p = c.next.skip p := by
  simp [skip, span, h, hx, advance]

theorem skip_of_neg {p : Char → Bool} (h : ∀ x ∈ c.rest.head?, p x = false) : c.skip p = c := by
  rw [skip, span_eq (w := []) rfl (by simp) h]
  rfl

theorem skipComment_of_ne (h : c.rest.head? ≠ some '#') : c.skipComment = c := by
  rw [skipComment, peek_zero, if_neg h]

end Stencil.Yaml.Cursor
