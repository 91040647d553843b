import Stencil.Proofs.FileSystem.Room
import Stencil.Proofs.Run.Step
import Stencil.Proofs.Text.Utf8

/-!
# `Stencil.Proofs.Run.Saving` — texts that are saved and read

## Contents
- **Folders on the way.** Making the folders on the way to a place adds folders where nothing was, and nothing
  else (`adds_of_makeFoldersTo`). It succeeds if no file is in the way (`exec_makeFoldersTo`).
- **Saving.** A text can be saved just where there is room for a file (`canSave_iff`), whatever text it is.
- **Reading.** It is read back with its line breaks as LF, unchanged if it holds no CR.
-/

namespace Stencil.Job

open Text

/-! ## Folders on the way -/

/-- What making the folders on the way to a place, and one at the place, has made of a disk. -/
structure AddsFoldersTo (path : Path) (fs fs' : FileSystem) : Prop where
  adds : FileSystem.AddsFolders (fs.passed path ++ [fs.placeOf path]) fs fs'
  found : fs'.locate path = .ok (fs'.placeOf path) ∧ fs'.entryAt? (fs'.placeOf path) = some .folder

variable {path : Path} {st st' : RunState}

theorem adds_of_makeFolder {fault : Refusal → Fault} {u : Unit}
    (h : exec (makeFolder path true fault) st = (.ok u, st')) : AddsFoldersTo path st.disk st'.disk := by
  rcases exec_makeFolder_eq_ok h with hmade | ⟨-, hholds, hsame⟩
  · obtain ⟨hreach, hnone, hput⟩ := FileSystem.makeFolder_eq_ok hmade
    have hadds : FileSystem.AddsFolders (st.disk.passed path ++ [st.disk.placeOf path]) st.disk st'.disk :=
      hput ▸ .put (List.mem_append_right _ (List.mem_singleton_self _)) hnone
    refine ⟨hadds, ?_, ?_⟩
    · rw [hadds.grows.placeOf]
      exact hadds.grows.locate hreach
    · rw [hadds.grows.placeOf, hput]
      exact FileSystem.entryAt?_put_of_eq_none hnone .folder
  · rw [hsame]
    exact ⟨.refl _ _, FileSystem.holdsFolder_eq_ok_true_iff.mp hholds⟩

/-- **Folders are added on the way, and nothing else is done.** -/
theorem adds_of_makeFoldersTo {fuel : Nat} {u : Unit} (h : exec (makeFoldersTo fuel path) st = (.ok u, st')) :
    AddsFoldersTo path st.disk st'.disk := by
  induction fuel generalizing path st' with
  | zero => exact adds_of_makeFolder h
  | succ fuel ih =>
    unfold makeFoldersTo at h
    obtain ⟨s₁, s₂, hget, h⟩ := exec_bind_eq_ok h
    cases hget
    split at h
    · split at h
      · cases h
      · next hparent =>
        obtain ⟨⟨⟩, s₁, habove, hmake⟩ := exec_bind_eq_ok h
        have hnames : path.parts ≠ [] := fun hnil => hparent (Path.parent_eq_self_iff.mpr hnil)
        have habove := ih habove
        have hlast := adds_of_makeFolder hmake
        -- what is passed on the way to the folder around is passed on the way to this one
        have hway : st.disk.passed path.parent ++ [st.disk.placeOf path.parent] = st.disk.passed path :=
          (FileSystem.passed_eq_concat st.disk hnames).symm
        have hadds := habove.adds
        rw [hway] at hadds
        have hadds₂ := hlast.adds
        rw [FileSystem.passed_eq_of_workingFolder hadds.workingFolder,
          FileSystem.placeOf_eq_of_workingFolder hadds.workingFolder] at hadds₂
        exact ⟨(hadds.mono (List.subset_append_left _ _)).trans hadds₂, hlast.found⟩
    · exact adds_of_makeFolder h

/-- A folder that can be reached is made or is there, if no file is. -/
theorem exec_makeFolder_of_ne_file (fault : Refusal → Fault)
    (hreach : st.disk.locate path = .ok (st.disk.placeOf path))
    (hfile : ∀ bytes, st.disk.entryAt? (st.disk.placeOf path) ≠ some (.file bytes)) :
    ∃ st', exec (makeFolder path true fault) st = (.ok (), st') := by
  apply exec_makeFolder_of_entryAt? fault hreach
  cases hentry : st.disk.entryAt? (st.disk.placeOf path) with
  | none => exact .inl rfl
  | some e =>
    cases e with
    | folder => exact .inr ⟨rfl, rfl⟩
    | file bytes => exact absurd hentry (hfile bytes)

/-- **Folders on the way are made wherever no file is in the way.** -/
theorem exec_makeFoldersTo {fuel : Nat} (hok : FileSystem.IsAcceptable path)
    (hway : ∀ l ∈ st.disk.passed path ++ [st.disk.placeOf path], ∀ bytes, st.disk.entryAt? l ≠ some (.file bytes))
    (hfuel : path.parts.length ≤ fuel) : ∃ st', exec (makeFoldersTo fuel path) st = (.ok (), st') := by
  induction fuel generalizing path with
  | zero =>
    have hnil : path.parts = [] := List.length_eq_zero_iff.mp (Nat.le_zero.mp hfuel)
    exact exec_makeFolder_of_ne_file _ (FileSystem.locate_of_no_names hok hnil) (hway _ (by simp))
  | succ fuel ih =>
    have hplace : ∀ bytes, st.disk.entryAt? (st.disk.placeOf path) ≠ some (.file bytes) := hway _ (by simp)
    have hpassed : ∀ l ∈ st.disk.passed path, ∀ bytes, st.disk.entryAt? l ≠ some (.file bytes) :=
      fun l hl => hway l (List.mem_append_left _ hl)
    have hget : exec (get : Job RunState) st = (.ok st, st) := rfl
    rw [makeFoldersTo, exec_bind, hget]
    dsimp only
    rcases FileSystem.locate_eq_ok_or_notFound hok hpassed with hreach | hmissing
    · -- the folder around is there
      split
      · next hmake =>
        rw [FileSystem.makeFolder, hreach] at hmake
        dsimp only at hmake
        split at hmake <;> cases hmake
      · exact exec_makeFolder_of_ne_file _ hreach hplace
    · have hnames : path.parts ≠ [] := by
        intro hnil
        rw [FileSystem.locate_of_no_names hok hnil] at hmissing
        cases hmissing
      have hparent : path.parent ≠ path := fun h => hnames (Path.parent_eq_self_iff.mp h)
      have hlength : path.parent.parts.length ≤ fuel := by
        rw [Path.parts_parent, List.length_dropLast]
        omega
      rw [FileSystem.passed_eq_concat st.disk hnames] at hpassed
      obtain ⟨st₁, habove⟩ := ih hok.parent hpassed hlength
      obtain ⟨hadds, hfound, hfolder⟩ := adds_of_makeFoldersTo habove
      have hfile : ∀ bytes, st₁.disk.entryAt? (st₁.disk.placeOf path) ≠ some (.file bytes) := by
        intro bytes
        rw [hadds.grows.placeOf]
        exact hadds.ne_file (hplace bytes)
      obtain ⟨st₂, hlast⟩ := exec_makeFolder_of_ne_file (Fault.refused · path)
        (FileSystem.locate_of_parent hok hnames hfound hfolder) hfile
      refine ⟨st₂, ?_⟩
      simp only [FileSystem.makeFolder_eq_error_of_locate hmissing, if_neg hparent]
      rw [exec_bind, habove]
      exact hlast

/-! ## Saving -/

/-- Whether a text can be saved at a path: its folder can be made or is there, and it leads to no folder. -/
def CanSave (path : Path) (st : RunState) : Prop := ∃ text st', exec (saveText path text) st = (.ok (), st')

/-- Once the folders on the way are made, the text is written. -/
theorem exec_saveText_of_folders {st₁ : RunState} (hfolders : exec (makeFolders path.parent) st = (.ok (), st₁))
    (hreach : st₁.disk.locate path = .ok (st₁.disk.placeOf path))
    (hfree : st₁.disk.entryAt? (st₁.disk.placeOf path) ≠ some .folder) (text : String) :
    exec (saveText path text) st =
      (.ok (), { st₁ with disk := st₁.disk.put (st₁.disk.placeOf path) (.file (Utf8.encode text.toList)) }) := by
  rw [saveText, exec_bind, hfolders]
  dsimp only
  rw [writeText, exec_change, FileSystem.writeFile_of_locate hreach hfree]

/-- Where one text can be saved, every text can, and it is found there. -/
theorem CanSave.exec_saveText (h : CanSave path st) (text : String) :
    ∃ st', exec (saveText path text) st = (.ok (), st') ∧ st'.disk.readFile path = .ok (Utf8.encode text.toList) := by
  -- that one text is written shows that the path leads to a place for a file once the folders are made
  obtain ⟨other, st₁, hsave⟩ := h
  obtain ⟨⟨⟩, st₂, hfolders, hwrite⟩ := exec_bind_eq_ok hsave
  obtain ⟨hreach, hfree, -⟩ := FileSystem.writeFile_eq_ok (exec_writeText_eq_ok hwrite)
  exact ⟨_, exec_saveText_of_folders hfolders hreach hfree text, FileSystem.readFile_put hreach hfree _⟩

/-- **A text can be saved just where there is room for a file.** -/
theorem canSave_iff : CanSave path st ↔ st.disk.HasRoom path := by
  constructor
  · rintro ⟨text, st', hsave⟩
    obtain ⟨⟨⟩, st₁, hfolders, hwrite⟩ := exec_bind_eq_ok hsave
    obtain ⟨hadds, -, hparent⟩ := adds_of_makeFoldersTo hfolders
    obtain ⟨hreach, hfree, -⟩ := FileSystem.writeFile_eq_ok (exec_writeText_eq_ok hwrite)
    obtain ⟨hok, hway⟩ := FileSystem.locate_eq_ok_placeOf_iff.mp hreach
    rw [hadds.grows.placeOf] at hfree
    rw [FileSystem.passed_eq_of_workingFolder hadds.workingFolder] at hway
    -- what is a folder now has been no file, and what is none now has been none
    refine ⟨hok, ?_, fun l hl bytes hfile => ?_, fun hfolder => ?_, fun hmem => ?_⟩
    · intro hnil
      rw [Path.parent_eq_self_iff.mpr hnil, hadds.grows.placeOf] at hparent
      exact hfree hparent
    · obtain ⟨bytes', hfile'⟩ := hadds.grows.file l bytes hfile
      rw [hway l hl] at hfile'
      cases hfile'
    · exact hfree (hadds.grows.folder _ hfolder)
    · exact hfree (hway _ hmem)
  · intro h
    have hway := h.way
    rw [FileSystem.passed_eq_concat st.disk h.named] at hway
    obtain ⟨st₁, hfolders⟩ := exec_makeFoldersTo h.acceptable.parent hway (Nat.le_refl _)
    obtain ⟨hadds, hfound, hparent⟩ := adds_of_makeFoldersTo hfolders
    have hreach := FileSystem.locate_of_parent h.acceptable h.named hfound hparent
    have hfree : st₁.disk.entryAt? (st₁.disk.placeOf path) ≠ some .folder := by
      rw [hadds.grows.placeOf]
      rcases hadds.entry (st.disk.placeOf path) with heq | ⟨hmem, -, -⟩
      · rw [heq]
        exact h.free
      · rw [← FileSystem.passed_eq_concat st.disk h.named] at hmem
        exact absurd hmem h.apart
    exact ⟨"", _, exec_saveText_of_folders hfolders hreach hfree ""⟩

/-! ## Reading -/

/-- A text is read with its line breaks as LF. -/
theorem exec_readText_encode {path : Path} {st : RunState} {text : List Char} {fault : Refusal → Fault}
    (h : st.disk.readFile path = .ok (Utf8.encode text)) :
    exec (readText path fault) st = (.ok (String.ofList (normalizeNewlines text)), st) := by
  rw [readText, exec_bind, exec_ask, h]
  dsimp only [Except.mapError]
  rw [Utf8.decode_encode]
  rfl

/-- A text without CR is read as it was written. -/
theorem exec_readText {path : Path} {st : RunState} {text : String} {fault : Refusal → Fault}
    (h : st.disk.readFile path = .ok (Utf8.encode text.toList)) (hcr : normalizeNewlines text.toList = text.toList) :
    exec (readText path fault) st = (.ok text, st) := by
  rw [exec_readText_encode h, hcr, String.ofList_toList]

end Stencil.Job
