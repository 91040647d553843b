import Stencil.Outline.Document
import Stencil.Proofs.Outline.Parents
import Stencil.Proofs.Text.Lines

/-!
# `Stencil.Proofs.Outline.Document` — the lines of a document

## Contents
- **Numbered lines.** Blank lines apart, a line is classified whatever its number is. Lines behind other
  lines are numbered on.
- **Reading.** What is read from lines, and so from a document, is what the parents of the lines make: root folders
  and messages about lost lines.
-/

namespace Stencil.Outline

open Text

/-! ## Numbered lines -/

theorem map_fst_classifyFrom (number : Int) (ls : List (List Char)) :
    (classifyFrom number ls).map Prod.fst = (spoken ls).map Line.classify := by
  induction ls generalizing number with
  | nil => rfl
  | cons l ls ih =>
    unfold classifyFrom spoken
    by_cases hl : (strip l).isEmpty
    · rw [if_pos hl, List.filter_cons_of_neg (by simp [hl])]
      exact ih (number + 1)
    · rw [if_neg hl, List.filter_cons_of_pos (by simpa using hl)]
      simp only [List.map_cons, ih]
      rfl

/-- There are as many classified lines as lines that are not blank. -/
theorem length_classifyFrom (number : Int) (ls : List (List Char)) :
    (classifyFrom number ls).length = (spoken ls).length := by
  have h := congrArg List.length (map_fst_classifyFrom number ls)
  rwa [List.length_map, List.length_map] at h

theorem classifyFrom_append (number : Int) (ls ms : List (List Char)) :
    classifyFrom number (ls ++ ms) = classifyFrom number ls ++ classifyFrom (number + ls.length) ms := by
  induction ls generalizing number with
  | nil => simp [classifyFrom]
  | cons l ls ih =>
    have hnumber : number + 1 + (ls.length : Int) = number + ((l :: ls).length : Int) := by
      rw [List.length_cons]
      omega
    rw [List.cons_append, classifyFrom, classifyFrom, ih, hnumber]
    split
    · rfl
    · rw [List.cons_append]

/-! ## Reading -/

theorem folders_of_lines (ls : List (Line × Int)) :
    (Builder.empty.addAll ls).build.folders = (rootsOf ls).map (folderAt ls) := by
  have h := Builder.agrees_addAll ls
  show (Builder.addAll _ _).roots.filterMap (fun r => (Builder.finish 0 _)[r]?) = _
  rw [h.roots, List.filterMap_map, ← List.filterMap_eq_map]
  exact List.filterMap_congr fun i hi => h.getElem?_finish i (mem_foldersOf_of_mem_rootsOf hi)

theorem dropped_of_lines (ls : List (Line × Int)) :
    (Builder.empty.addAll ls).build.dropped = ((lostOf ls).filterMap (dropAt? ls)).map Drop.message :=
  congrArg (List.map Drop.message) (Builder.agrees_addAll ls).dropped

theorem folders_ofText (text : List Char) :
    (ofText text).folders =
      (rootsOf (classifyFrom 1 (lines text))).map (folderAt (classifyFrom 1 (lines text))) :=
  folders_of_lines _

theorem dropped_ofText (text : List Char) :
    (ofText text).dropped =
      ((lostOf (classifyFrom 1 (lines text))).filterMap (dropAt? (classifyFrom 1 (lines text)))).map
        Drop.message :=
  dropped_of_lines _

theorem isSome_dropAt? {ls : List (Line × Int)} {i : Nat} (h : i < ls.length) : (dropAt? ls i).isSome := by
  simp [dropAt?, h]

theorem isSome_fileAt? {ls : List (Line × Int)} {i : Nat} (h : i < ls.length) : (fileAt? ls i).isSome := by
  simp [fileAt?, h]

/-- What every position gives is as long as the list of positions. -/
theorem length_filterMap_of_isSome {α : Type} {f : Nat → Option α} {is : List Nat} (h : ∀ i ∈ is, (f i).isSome) :
    (is.filterMap f).length = is.length := by
  rw [List.length_filterMap_eq_countP, List.countP_eq_length]
  exact h

/-- Every lost line has a message. -/
theorem length_dropped_ofText (text : List Char) :
    (ofText text).dropped.length = (lostOf (classifyFrom 1 (lines text))).length := by
  rw [dropped_ofText, List.length_map, length_filterMap_of_isSome]
  exact fun i hi => isSome_dropAt? (List.mem_range.mp (List.mem_filter.mp hi).1)

theorem lostOf_eq_nil_of_dropped {text : List Char} (h : (ofText text).dropped = []) :
    lostOf (classifyFrom 1 (lines text)) = [] := by
  rw [← List.length_eq_zero_iff, ← length_dropped_ofText, h]
  rfl

end Stencil.Outline
