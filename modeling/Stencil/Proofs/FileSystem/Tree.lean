import Stencil.Proofs.FileSystem.Place

/-!
# `Stencil.Proofs.FileSystem.Tree` — disks on which everything lies in a folder

## Contents
- **Trees.** `IsTree` says of a disk what every real one obeys: whatever is there lies in a folder, and the
  working folder is one.
- **Reaching.** A path leads into a folder: what it leads to need not be there, but what that lies in is
  (`IsTree.dropLast_of_locate`).
- **Changes.** A tree stays one where something is put into a folder.
-/

namespace Stencil.FileSystem

variable {fs : FileSystem} {path : Path} {l : Location} {e : Entry}

/-! ## Trees -/

/-- A disk on which whatever is there lies in a folder, and on which relative paths start in one. -/
structure IsTree (fs : FileSystem) : Prop where
  parent : ∀ l e, fs.entryAt? l = some e → fs.entryAt? l.dropLast = some .folder
  workingFolder : fs.entryAt? fs.workingFolder = some .folder

/-- Names that are followed from a place in a folder lead to a place in a folder. -/
theorem IsTree.dropLast_of_follow (h : fs.IsTree) {here : Location} {names : List String}
    (hhere : fs.entryAt? here.dropLast = some .folder) (hf : fs.follow here names = .ok l) :
    fs.entryAt? l.dropLast = some .folder := by
  induction names generalizing here with
  | nil =>
    cases hf
    exact hhere
  | cons name names ih =>
    unfold follow at hf
    split at hf
    · cases hf
    · next next hstep =>
      refine ih ?_ hf
      unfold step at hstep
      split at hstep
      · cases hstep
      · cases hstep
      · next hfolder =>
        split at hstep
        · -- climbing out of a folder leads to a folder, which lies in one again
          cases hstep
          exact h.parent _ _ (h.parent _ _ hfolder)
        · split at hstep
          · cases hstep
          · cases hstep
            rw [List.dropLast_concat]
            exact hfolder

theorem IsTree.entryAt?_startOf (h : fs.IsTree) (path : Path) : fs.entryAt? (fs.startOf path) = some .folder := by
  unfold startOf
  split
  · exact h.workingFolder
  · exact entryAt?_nil fs

/-- **A path leads into a folder.** -/
theorem IsTree.dropLast_of_locate (h : fs.IsTree) (hl : fs.locate path = .ok l) :
    fs.entryAt? l.dropLast = some .folder := by
  have hstart := h.parent _ _ (h.entryAt?_startOf path)
  unfold locate at hl
  split at hl
  · split at hl
    · next l' hr =>
      cases hl
      unfold resolve at hr
      split at hr
      · cases hr
      · exact h.dropLast_of_follow hstart hr
    · cases hl
  · cases hl

/-! ## Changes -/

/-- What is put into a folder makes no tree less of one, if the disk grows. -/
theorem IsTree.put (h : fs.IsTree) (hl : fs.entryAt? l.dropLast = some .folder) (hgrows : Grows fs (fs.put l e)) :
    (fs.put l e).IsTree := by
  refine ⟨fun m e' hm => ?_, hgrows.folder _ h.workingFolder⟩
  by_cases hlm : l = m
  · exact hgrows.folder _ (hlm ▸ hl)
  · rw [entryAt?_put_of_ne fs hlm] at hm
    exact hgrows.folder _ (h.parent m e' hm)

end Stencil.FileSystem
