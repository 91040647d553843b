import Mathlib.Data.List.Basic
import Stencil.FileSystem.Basic
import Stencil.Proofs.Path

/-!
# `Stencil.Proofs.FileSystem.Place` — where paths lead

## Contents
- **Places.** `placeOf` reads off a path where it leads if it leads anywhere. There are no links, so the
  place depends on the path alone, and different plain names lead to different places.
- **Growth.** A disk `Grows` if folders stay folders and files stay files. A path that leads somewhere
  leads there still when the disk has grown.
- **Operations.** What a successful operation has found and what it puts where, in terms of places.
-/

namespace Stencil

namespace Location

/-- Where a name leads from a location. -/
def advance (here : Location) (name : String) : Location :=
  if name = ".." then here.dropLast else here ++ [name]

/-- A plain name leads one level down. -/
theorem advance_of_plain {name : String} (h : IsPlainComponent name) (here : Location) :
    advance here name = here ++ [name] := if_neg h.2

end Location

namespace FileSystem

variable (fs : FileSystem)

/-! ## Places -/

/-- Where a path leads, if it leads anywhere. -/
def placeOf (path : Path) : Location := path.parts.foldl Location.advance (fs.startOf path)

variable {fs} {path : Path} {l : Location}

theorem follow_eq_ok {here : Location} {names : List String} (h : fs.follow here names = .ok l) :
    l = names.foldl Location.advance here := by
  induction names generalizing here with
  | nil => exact (Except.ok.inj h).symm
  | cons name names ih =>
    unfold follow at h
    split at h
    · cases h
    · next next hstep =>
      -- the only way to look a name up successfully is to advance
      have hnext : next = Location.advance here name := by
        unfold step at hstep
        unfold Location.advance
        split at hstep
        · cases hstep
        · cases hstep
        · split at hstep
          · next hup => rw [if_pos hup]; exact (Except.ok.inj hstep).symm
          · next hup =>
            split at hstep
            · cases hstep
            · rw [if_neg hup]; exact (Except.ok.inj hstep).symm
      rw [List.foldl_cons, ← hnext]
      exact ih h

theorem resolve_eq_ok (h : fs.resolve path = .ok l) : l = fs.placeOf path := by
  unfold resolve at h
  split at h
  · cases h
  · exact follow_eq_ok h

/-- **A path leads to its place**, if it leads anywhere. -/
theorem locate_eq_ok (h : fs.locate path = .ok l) : l = fs.placeOf path := by
  unfold locate at h
  split at h
  · split at h
    · next hr =>
      cases h
      exact resolve_eq_ok hr
    · cases h
  · cases h

theorem placeOf_eq_of_workingFolder {fs' : FileSystem} (h : fs'.workingFolder = fs.workingFolder)
    (path : Path) : fs'.placeOf path = fs.placeOf path := by
  unfold placeOf startOf
  rw [h]

@[simp] theorem placeOf_put (fs : FileSystem) (l : Location) (e : Entry) (path : Path) :
    (fs.put l e).placeOf path = fs.placeOf path := placeOf_eq_of_workingFolder (workingFolder_put fs l e) path

variable {fs fs' : FileSystem} {path : Path} {l : Location}

/-- A component leads on from the place of a path. -/
theorem placeOf_join {c : String} (h : IsComponent c) (p : Path) :
    fs.placeOf (p / c) = Location.advance (fs.placeOf p) c := by
  unfold placeOf startOf
  rw [Path.root_join_component h, Path.parts_join_component h, List.foldl_append]
  rfl

/-- A plain name leads down from the place of a folder. -/
theorem placeOf_join_plain {name : String} (h : IsPlainComponent name) (p : Path) :
    fs.placeOf (p / name) = fs.placeOf p ++ [name] := by
  rw [placeOf_join h.1, Location.advance_of_plain h]

/-- Plain names lead from the place of a folder down, one level each. -/
theorem placeOf_below {names : List String} (h : ∀ c ∈ names, IsPlainComponent c) (p : Path) :
    fs.placeOf (p.below names) = fs.placeOf p ++ names := by
  have hproper : ∀ c ∈ names, IsComponent c := fun c hc => (h c hc).1
  have hdown : ∀ here : Location, names.foldl Location.advance here = here ++ names := by
    clear hproper
    induction names with
    | nil => simp
    | cons c names ih =>
      intro here
      rw [List.foldl_cons, Location.advance_of_plain (h c List.mem_cons_self),
        ih fun d hd => h d (List.mem_cons_of_mem c hd)]
      simp
  unfold placeOf startOf
  rw [Path.root_below hproper, Path.parts_below hproper, List.foldl_append, hdown]

/-- **Different plain names lead to different places**, from the same folder. -/
theorem placeOf_below_inj {ms ns : List String} (hm : ∀ c ∈ ms, IsPlainComponent c)
    (hn : ∀ c ∈ ns, IsPlainComponent c) (p : Path) :
    fs.placeOf (p.below ms) = fs.placeOf (p.below ns) ↔ ms = ns := by
  rw [placeOf_below hm, placeOf_below hn, List.append_cancel_left_eq]

/-! ## Growth -/

/-- A disk on which everything is still what it was: folders are folders, files are files, perhaps with other
    bytes. -/
structure Grows (fs fs' : FileSystem) : Prop where
  workingFolder : fs'.workingFolder = fs.workingFolder
  folder : ∀ l, fs.entryAt? l = some .folder → fs'.entryAt? l = some .folder
  file : ∀ l bytes, fs.entryAt? l = some (.file bytes) → ∃ bytes', fs'.entryAt? l = some (.file bytes')

theorem Grows.refl (fs : FileSystem) : Grows fs fs := ⟨rfl, fun _ h => h, fun _ bytes h => ⟨bytes, h⟩⟩

theorem Grows.trans {fs₁ fs₂ fs₃ : FileSystem} (h₁ : Grows fs₁ fs₂) (h₂ : Grows fs₂ fs₃) : Grows fs₁ fs₃ := by
  refine ⟨h₂.workingFolder.trans h₁.workingFolder, fun l h => h₂.folder l (h₁.folder l h), fun l bytes h => ?_⟩
  obtain ⟨bytes', h'⟩ := h₁.file l bytes h
  exact h₂.file l bytes' h'

theorem Grows.placeOf (h : Grows fs fs') (path : Path) : fs'.placeOf path = fs.placeOf path :=
  placeOf_eq_of_workingFolder h.workingFolder path

theorem Grows.follow (h : Grows fs fs') {here : Location} {names : List String}
    (hf : fs.follow here names = .ok l) : fs'.follow here names = .ok l := by
  induction names generalizing here with
  | nil => exact hf
  | cons name names ih =>
    unfold FileSystem.follow at hf ⊢
    split at hf
    · cases hf
    · next next hstep =>
      have hstep' : fs'.step here name = .ok next := by
        unfold step at hstep ⊢
        split at hstep
        · cases hstep
        · cases hstep
        · next hfolder => rw [h.folder here hfolder]; exact hstep
      rw [hstep']
      exact ih hf

/-- **What could be reached can be reached still.** -/
theorem Grows.locate (h : Grows fs fs') (hl : fs.locate path = .ok l) : fs'.locate path = .ok l := by
  unfold FileSystem.locate at hl ⊢
  split at hl
  · next husable =>
    split at hl
    · next l' hr =>
      cases hl
      have hstart : fs'.startOf path = fs.startOf path := by
        unfold startOf
        rw [h.workingFolder]
      have hr' : fs'.resolve path = .ok l := by
        unfold resolve at hr ⊢
        split at hr
        · cases hr
        · next hlong => rw [if_neg hlong, hstart]; exact h.follow hr
      rw [if_pos husable, hr']
    · cases hl
  · cases hl

/-- The root is a folder from the start. -/
theorem ne_nil_of_entryAt? (h : fs.entryAt? l ≠ some .folder) : l ≠ [] := by
  rintro rfl
  exact h (entryAt?_nil fs)

/-- What is put where nothing is, is there. -/
theorem entryAt?_put_of_eq_none (h : fs.entryAt? l = none) (e : Entry) : (fs.put l e).entryAt? l = some e := by
  have hfile : fs.entryAt? l ≠ some .folder := by
    rw [h]
    simp
  exact entryAt?_put_self fs (ne_nil_of_entryAt? hfile) e

/-- What is there is not where nothing is. -/
theorem ne_of_entryAt?_eq_none {m : Location} {e : Entry} (hl : fs.entryAt? l = none)
    (hm : fs.entryAt? m = some e) : l ≠ m := by
  rintro rfl
  rw [hl] at hm
  cases hm

/-- A folder where nothing was makes a disk grow. -/
theorem grows_put_folder (hl : fs.entryAt? l = none) : Grows fs (fs.put l .folder) := by
  refine ⟨rfl, fun m hm => ?_, fun m bytes hm => ⟨bytes, ?_⟩⟩
  · rw [entryAt?_put_of_ne fs (ne_of_entryAt?_eq_none hl hm), hm]
  · rw [entryAt?_put_of_ne fs (ne_of_entryAt?_eq_none hl hm), hm]

/-- A file where no folder is makes a disk grow. -/
theorem grows_put_file (hl : fs.entryAt? l ≠ some .folder) (bytes : Text.Bytes) :
    Grows fs (fs.put l (.file bytes)) := by
  have hnil := ne_nil_of_entryAt? hl
  refine ⟨rfl, fun m hm => ?_, fun m old hm => ?_⟩
  · have hne : l ≠ m := by rintro rfl; exact hl hm
    rw [entryAt?_put_of_ne fs hne, hm]
  · by_cases hlm : l = m
    · rw [← hlm]
      exact ⟨bytes, entryAt?_put_self fs hnil _⟩
    · exact ⟨old, by rw [entryAt?_put_of_ne fs hlm, hm]⟩

/-! ## Operations -/

/-- A folder that has been made is at its place, where nothing was. -/
theorem makeFolder_eq_ok (h : fs.makeFolder path = .ok fs') :
    fs.locate path = .ok (fs.placeOf path) ∧ fs.entryAt? (fs.placeOf path) = none ∧
      fs' = fs.put (fs.placeOf path) .folder := by
  unfold makeFolder at h
  split at h
  · cases h
  · next l hl =>
    obtain rfl := locate_eq_ok hl
    split at h
    · cases h
    · next hnone => exact ⟨hl, hnone, (Except.ok.inj h).symm⟩

/-- A file that has been written is at its place, where no folder was. -/
theorem writeFile_eq_ok {bytes : Text.Bytes} (h : fs.writeFile path bytes = .ok fs') :
    fs.locate path = .ok (fs.placeOf path) ∧ fs.entryAt? (fs.placeOf path) ≠ some .folder ∧
      fs' = fs.put (fs.placeOf path) (.file bytes) := by
  unfold writeFile at h
  split at h
  · cases h
  · next l hl =>
    obtain rfl := locate_eq_ok hl
    split at h
    · cases h
    · next hfile => exact ⟨hl, hfile, (Except.ok.inj h).symm⟩

/-- A folder can be made where nothing is. -/
theorem makeFolder_of_locate (hreach : fs.locate path = .ok l) (hnone : fs.entryAt? l = none) :
    fs.makeFolder path = .ok (fs.put l .folder) := by
  rw [makeFolder, hreach]
  simp only [hnone]

/-- A file can be written where no folder is. -/
theorem writeFile_of_locate (hreach : fs.locate path = .ok l) (hfile : fs.entryAt? l ≠ some .folder)
    (bytes : Text.Bytes) : fs.writeFile path bytes = .ok (fs.put l (.file bytes)) := by
  rw [writeFile, hreach]
  dsimp only
  split
  · next hfolder => exact absurd hfolder hfile
  · rfl

/-- A file that has been opened is at its place, where no folder was, and empty. -/
theorem openFile_eq_ok (h : fs.openFile path = .ok (fs', l)) :
    fs.locate path = .ok (fs.placeOf path) ∧ fs.entryAt? (fs.placeOf path) ≠ some .folder ∧ l = fs.placeOf path ∧
      fs' = fs.put (fs.placeOf path) (.file []) := by
  unfold openFile at h
  split at h
  · cases h
  · next l' hl =>
    obtain rfl := locate_eq_ok hl
    split at h
    · cases h
    · next hfile =>
      cases h
      exact ⟨hl, hfile, rfl, rfl⟩

/-- A file can be opened where no folder is. -/
theorem openFile_of_locate (hreach : fs.locate path = .ok l) (hfile : fs.entryAt? l ≠ some .folder) :
    fs.openFile path = .ok (fs.put l (.file []), l) := by
  rw [openFile, hreach]
  dsimp only
  split
  · next hfolder => exact absurd hfolder hfile
  · rfl

/-- What cannot be opened cannot be written. -/
theorem writeFile_eq_error_of_openFile {r : Refusal} (h : fs.openFile path = .error r) (bytes : Text.Bytes) :
    fs.writeFile path bytes = .error r := by
  unfold openFile at h
  unfold writeFile
  cases hl : fs.locate path with
  | error r' =>
    rw [hl] at h
    cases h
    rfl
  | ok l =>
    rw [hl] at h
    dsimp only at h ⊢
    split at h
    · next hfolder =>
      cases h
      rfl
    · cases h

/-- What an open file holds is overwritten from its start on. -/
theorem overwrite_of_entryAt? {old : Text.Bytes} (h : fs.entryAt? l = some (.file old)) (bytes : Text.Bytes) :
    fs.overwrite l bytes = fs.put l (.file (bytes ++ old.drop bytes.length)) := by
  rw [overwrite, h]

/-- **To open a file and to overwrite it at once is to write it.** -/
theorem overwrite_put_nil (hl : l ≠ []) (bytes : Text.Bytes) :
    (fs.put l (.file [])).overwrite l bytes = fs.put l (.file bytes) := by
  rw [overwrite_of_entryAt? (entryAt?_put_self fs hl _), List.drop_nil, List.append_nil, put, put, put,
    Entries.insert_insert_self]

/-- A file is read at its place. -/
theorem readFile_eq_ok_iff {bytes : Text.Bytes} :
    fs.readFile path = .ok bytes ↔
      fs.locate path = .ok (fs.placeOf path) ∧ fs.entryAt? (fs.placeOf path) = some (.file bytes) := by
  unfold readFile
  constructor
  · intro h
    split at h
    · cases h
    · next l hl =>
      obtain rfl := locate_eq_ok hl
      split at h
      · cases h
      · cases h
      · next content hfile => cases h; exact ⟨hl, hfile⟩
  · rintro ⟨hl, hfile⟩
    rw [hl]
    simp only [hfile]

/-- What is read is there. -/
theorem holds_of_readFile {bytes : Text.Bytes} (h : fs.readFile path = .ok bytes) : fs.holds path = .ok true := by
  obtain ⟨hl, hfile⟩ := readFile_eq_ok_iff.mp h
  rw [holds, find?, hl]
  simp [Except.map, hfile]

/-- A file is read as it was put where no folder was. -/
theorem readFile_put (hreach : fs.locate path = .ok (fs.placeOf path))
    (hfile : fs.entryAt? (fs.placeOf path) ≠ some .folder) (bytes : Text.Bytes) :
    (fs.put (fs.placeOf path) (.file bytes)).readFile path = .ok bytes := by
  rw [readFile_eq_ok_iff, placeOf_put]
  exact ⟨(grows_put_file hfile bytes).locate hreach, entryAt?_put_self fs (ne_nil_of_entryAt? hfile) _⟩

/-- A folder is found at its place. -/
theorem holdsFolder_eq_ok_true_iff :
    fs.holdsFolder path = .ok true ↔
      fs.locate path = .ok (fs.placeOf path) ∧ fs.entryAt? (fs.placeOf path) = some .folder := by
  unfold holdsFolder find?
  constructor
  · intro h
    cases hl : fs.locate path with
    | ok l =>
      obtain rfl := locate_eq_ok hl
      rw [hl] at h
      have hfolder : (fs.entryAt? (fs.placeOf path) == some .folder) = true := Except.ok.inj h
      exact ⟨rfl, by simpa using hfolder⟩
    | error r =>
      rw [hl] at h
      rcases r with (_ | _ | _ | _ | _) | _ <;> simp [Except.map] at h
  · rintro ⟨hl, hfolder⟩
    rw [hl]
    simp [Except.map, hfolder]

/-- If it cannot be told whether a folder is there, the path is refused. -/
theorem locate_eq_error_of_holdsFolder {r : Refusal} (h : fs.holdsFolder path = .error r) :
    fs.locate path = .error r := by
  unfold holdsFolder find? at h
  cases hl : fs.locate path with
  | ok l => rw [hl] at h; cases h
  | error r' =>
    rw [hl] at h
    rcases r' with (_ | _ | _ | _ | _) | _ <;> cases h <;> rfl

/-- What holds of the path holds of the folder that is to be made there. -/
theorem makeFolder_eq_error_of_locate {r : Refusal} (h : fs.locate path = .error r) :
    fs.makeFolder path = .error r := by
  rw [makeFolder, h]

/-- A folder that is found is found when the disk has grown. -/
theorem Grows.holdsFolder (h : Grows fs fs') (hp : fs.holdsFolder path = .ok true) :
    fs'.holdsFolder path = .ok true := by
  obtain ⟨hreach, hfolder⟩ := holdsFolder_eq_ok_true_iff.mp hp
  rw [holdsFolder_eq_ok_true_iff, h.placeOf]
  exact ⟨h.locate hreach, h.folder _ hfolder⟩

end FileSystem

end Stencil
