import Stencil.Text.Blank
import Stencil.Text.CodePoints
import Stencil.Scope.Basic

/-!
# `Stencil.Template.Placeholder` — placeholders in a text

## Contents
- **Occurrences.** A placeholder is a key between two runs of three underscores; the key has at
  least one character and no blank, and is as short as it can be. `occurrences` finds them from the
  left, without overlap.
- **Completion.** `complete` puts the value of each key that has one in the place of its
  placeholder, from the last occurrence to the first, so that the positions of the others stay
  right. Values are not searched again.
-/

namespace Stencil.Placeholder

open Text

/-- The text behind three underscores, if the text starts with them. -/
def delimiter? : List Char → Option (List Char)
  | '_' :: '_' :: '_' :: cs => some cs
  | _ => none

/-- The shortest key that starts a text and is followed by three underscores. -/
def key? : List Char → Option (List Char)
  | [] => none
  | c :: cs =>
    if isBlank c then none
    else if (delimiter? cs).isSome then some [c]
    else (key? cs).map (c :: ·)

/-- The key of the placeholder that starts a text. -/
def opening? (cs : List Char) : Option (List Char) := (delimiter? cs).bind key?

/-- A placeholder in a text. -/
structure Occurrence where
  /-- The position of its first underscore. -/
  start : Nat
  /-- Its key. -/
  key : List Char
  deriving Repr, DecidableEq

/-- The position behind the last underscore. -/
def Occurrence.stop (o : Occurrence) : Nat := o.start + o.key.length + 6

/-- The occurrences in a text whose first character has position `pos`, after passing over `skip` characters of
    an occurrence already found. -/
def occurrencesFrom : (pos skip : Nat) → List Char → List Occurrence
  | _, _, [] => []
  | pos, skip + 1, _ :: cs => occurrencesFrom (pos + 1) skip cs
  | pos, 0, c :: cs =>
    match opening? (c :: cs) with
    | some key => ⟨pos, key⟩ :: occurrencesFrom (pos + 1) (key.length + 5) cs
    | none => occurrencesFrom (pos + 1) 0 cs

/-- The placeholders of a text, in order. -/
def occurrences (cs : List Char) : List Occurrence := occurrencesFrom 0 0 cs

/-- The keys of the placeholders of a text, in order. -/
def keysOf (cs : List Char) : List (List Char) := (occurrences cs).map Occurrence.key

/-- Replaces an occurrence by a value. -/
def splice {α : Type} (cs : List α) (o : Occurrence) (value : List α) : List α :=
  cs.take o.start ++ value ++ cs.drop o.stop

/-- Replaces an occurrence by the value of its key, if it has one. -/
def resolve (scope : Scope) (o : Occurrence) (cs : List Char) : List Char :=
  match scope.get? (String.ofList o.key) with
  | some value => splice cs o value.toList
  | none => cs

/-- The text with every placeholder completed whose key has a value. -/
def complete (scope : Scope) (cs : List Char) : List Char :=
  (occurrences cs).foldr (resolve scope) cs

/-- The keys of the placeholders of a text. -/
def keys (s : String) : List String := (keysOf s.toList).map String.ofList

/-- The text completed from a scope. -/
def fill (scope : Scope) (s : String) : String := String.ofList (complete scope s.toList)

/-- The text completed with values that need not be texts. -/
def fillPoints (value? : String → Option CodePoints) (s : String) : CodePoints :=
  let resolvePoints (o : Occurrence) (points : List Nat) : List Nat :=
    match value? (String.ofList o.key) with
    | some value => splice points o value.points
    | none => points
  ⟨(occurrences s.toList).foldr resolvePoints (CodePoints.ofString s).points⟩

@[simp] theorem occurrences_nil : occurrences [] = [] := rfl

@[simp] theorem complete_nil (scope : Scope) : complete scope [] = [] := rfl

/-- A key is never empty. -/
theorem key?_ne_nil {cs key : List Char} (h : key? cs = some key) : key ≠ [] := by
  cases cs with
  | nil => simp [key?] at h
  | cons c cs =>
    unfold key? at h
    split at h
    · simp at h
    · split at h
      · simp only [Option.some.injEq] at h
        simp [← h]
      · obtain ⟨k, _, rfl⟩ := Option.map_eq_some_iff.1 h
        simp

/-- A key has no blank. -/
theorem not_isBlank_of_mem_key? {cs key : List Char} (h : key? cs = some key) {c : Char} (hc : c ∈ key) :
    isBlank c = false := by
  induction cs generalizing key with
  | nil => simp [key?] at h
  | cons d cs ih =>
    unfold key? at h
    split at h
    · simp at h
    · next hd =>
      split at h
      · simp only [Option.some.injEq] at h
        subst h
        simp_all
      · obtain ⟨k, hk, rfl⟩ := Option.map_eq_some_iff.1 h
        rcases List.mem_cons.1 hc with rfl | hc
        · simpa using hd
        · exact ih hk hc

end Stencil.Placeholder
