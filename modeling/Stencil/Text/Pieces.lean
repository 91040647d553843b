/-!
# `Stencil.Text.Pieces` — cutting a text into pieces and deleting a word from it

## Contents
- **Pieces.** `pieces sep` cuts at every `sep`; joining with `sep` undoes it.
- **Words.** `eraseWord w` deletes the occurrences of `w`, found from the left without overlap.
-/

namespace Stencil.Text

variable {α : Type} [DecidableEq α]

/-- The pieces of a list between the occurrences of `sep`; there is always at least one. -/
def pieces (sep : α) : List α → List (List α)
  | [] => [[]]
  | c :: cs =>
    if c = sep then [] :: pieces sep cs
    else
      match pieces sep cs with
      | [] => [[c]]
      | p :: ps => (c :: p) :: ps

theorem pieces_ne_nil (sep : α) (cs : List α) : pieces sep cs ≠ [] := by
  cases cs with
  | nil => simp [pieces]
  | cons c cs =>
    unfold pieces
    split
    · simp
    · split <;> simp

/-- What is in a piece is in the list. -/
theorem subset_of_mem_pieces {sep : α} {cs p : List α} (h : p ∈ pieces sep cs) : p ⊆ cs := by
  induction cs generalizing p with
  | nil => simp_all [pieces]
  | cons c cs ih =>
    unfold pieces at h
    split at h
    · rcases List.mem_cons.1 h with rfl | h
      · exact List.nil_subset _
      · exact List.Subset.trans (ih h) (List.subset_cons_self c cs)
    · split at h
      · next heq => exact absurd heq (pieces_ne_nil sep cs)
      · next q qs heq =>
        rcases List.mem_cons.1 h with rfl | h
        · exact List.cons_subset_cons c (ih (by simp [heq]))
        · exact List.Subset.trans (ih (by simp [heq, h])) (List.subset_cons_self c cs)

/-- A list without the separator is its own only piece. -/
theorem pieces_eq_singleton {sep : α} {cs : List α} (h : sep ∉ cs) : pieces sep cs = [cs] := by
  induction cs with
  | nil => rfl
  | cons c cs ih =>
    simp only [List.mem_cons, not_or] at h
    simp [pieces, Ne.symm h.1, ih h.2]

/-- The first piece ends at the first separator. -/
theorem pieces_append_cons {sep : α} {as : List α} (h : sep ∉ as) (bs : List α) :
    pieces sep (as ++ sep :: bs) = as :: pieces sep bs := by
  induction as with
  | nil => simp [pieces]
  | cons a as ih =>
    simp only [List.mem_cons, not_or] at h
    rw [List.cons_append, pieces, if_neg (Ne.symm h.1), ih h.2]

/-- Deletes the word `w`, after passing over `skip` characters that belong to an occurrence
    already found. -/
def eraseWordFrom (w : List Char) : Nat → List Char → List Char
  | _, [] => []
  | skip + 1, _ :: cs => eraseWordFrom w skip cs
  | 0, c :: cs =>
    if w.isPrefixOf (c :: cs) then eraseWordFrom w (w.length - 1) cs
    else c :: eraseWordFrom w 0 cs

/-- The text without the occurrences of the non-empty word `w`, taken from the left. -/
def eraseWord (w cs : List Char) : List Char := eraseWordFrom w 0 cs

theorem eraseWordFrom_skip (w : List Char) (skip : Nat) (cs : List Char) :
    eraseWordFrom w skip cs = eraseWordFrom w 0 (cs.drop skip) := by
  induction skip generalizing cs with
  | zero => rfl
  | succ skip ih =>
    cases cs with
    | nil => rfl
    | cons c cs => exact ih cs

/-- An occurrence at the start is deleted. -/
theorem eraseWord_append {w : List Char} (h : w ≠ []) (cs : List Char) :
    eraseWord w (w ++ cs) = eraseWord w cs := by
  obtain ⟨x, xs, rfl⟩ := List.exists_cons_of_ne_nil h
  rw [eraseWord, List.cons_append, eraseWordFrom, if_pos (by simp), eraseWordFrom_skip]
  simp [eraseWord]

/-- Nothing is deleted from a text in which the word does not occur. -/
theorem eraseWord_eq_self {w cs : List Char} (h : ¬ w <:+: cs) : eraseWord w cs = cs := by
  induction cs with
  | nil => rfl
  | cons c cs ih =>
    have hstart : ¬ w <+: c :: cs := fun hp => h hp.isInfix
    have hrest : ¬ w <:+: cs := fun hin => h (hin.trans (List.suffix_cons c cs).isInfix)
    rw [eraseWord, eraseWordFrom, if_neg (mt List.isPrefixOf_iff_prefix.mp hstart)]
    exact congrArg (c :: ·) (ih hrest)

/-- What stands in front of the first character of the word stays. -/
theorem eraseWord_append_left {x : Char} {as : List Char} (h : x ∉ as) (xs cs : List Char) :
    eraseWord (x :: xs) (as ++ cs) = as ++ eraseWord (x :: xs) cs := by
  induction as with
  | nil => rfl
  | cons a as ih =>
    simp only [List.mem_cons, not_or] at h
    rw [List.cons_append, eraseWord, eraseWordFrom, if_neg (by simp [h.1])]
    exact congrArg (a :: ·) (ih h.2)

end Stencil.Text
