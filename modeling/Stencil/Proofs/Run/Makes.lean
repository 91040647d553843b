import Stencil.Proofs.Run.Step

/-!
# `Stencil.Proofs.Run.Makes` — what a task makes of a disk

## Contents
- **One step.** A step makes a disk grow, leaves other places alone, and makes no file appear or vanish
  where it writes none.
- **Templates.** A template is the same on a disk that has grown, if no file has changed at its place.
- **Plain names.** In an outline with plain names, different files have different places.
-/

namespace Stencil

open Text

namespace Settings

variable {s : Settings} {t : Task} {fs fs' : FileSystem} {l : Location}

/-! ## One step -/

theorem Made.grows (h : s.Made t fs fs') : FileSystem.Grows fs fs' := by
  cases h with
  | newFolder hreach hnone => exact FileSystem.grows_put_folder hnone
  | oldFolder hreuse hreach hfolder => exact .refl fs
  | file hcontent hreach hfile => exact FileSystem.grows_put_file hfile _

/-- A step leaves other places alone. -/
theorem Made.frame (h : s.Made t fs fs') (hl : fs.placeOf (s.pathOf t) ≠ l) :
    fs'.entryAt? l = fs.entryAt? l := by
  cases h with
  | newFolder hreach hnone => exact FileSystem.entryAt?_put_of_ne fs hl _
  | oldFolder hreuse hreach hfolder => rfl
  | file hcontent hreach hfile => exact FileSystem.entryAt?_put_of_ne fs hl _

/-- A folder that has been made is there. -/
theorem Made.holdsFolder {p : Path} (h : s.Made t fs fs') (ht : s.folderOf? t = some p) :
    fs'.holdsFolder p = .ok true := by
  have hplace := h.grows.placeOf p
  rw [FileSystem.holdsFolder_eq_ok_true_iff, hplace]
  cases h with
  | @newFolder parent name fs hreach hnone =>
    obtain rfl := Option.some.inj ht
    exact ⟨(FileSystem.grows_put_folder hnone).locate hreach, FileSystem.entryAt?_put_of_eq_none hnone _⟩
  | oldFolder hreuse hreach hfolder =>
    obtain rfl := Option.some.inj ht
    exact ⟨hreach, hfolder⟩
  | file hcontent hreach hfile => cases ht

/-- A file that has been made holds its content. -/
theorem Made.readFile {p : Path} {f : File} (h : s.Made t fs fs') (ht : s.fileOf? t = some (p, f)) :
    ∃ content, s.content? fs f = some content ∧ fs'.readFile p = .ok (Utf8.encode content.toList) := by
  cases h with
  | newFolder hreach hnone => cases ht
  | oldFolder hreuse hreach hfolder => cases ht
  | @file folder f fs content hcontent hreach hfile =>
    simp only [fileOf?, Option.some.injEq, Prod.mk.injEq] at ht
    obtain ⟨rfl, rfl⟩ := ht
    exact ⟨content, hcontent, FileSystem.readFile_put hreach hfile _⟩

/-- A step makes no file appear, vanish or change where it writes none. -/
theorem Made.file_iff (h : s.Made t fs fs') (hl : ∀ e, s.fileOf? t = some e → fs.placeOf e.1 ≠ l)
    (bytes : Bytes) : fs'.entryAt? l = some (.file bytes) ↔ fs.entryAt? l = some (.file bytes) := by
  cases h with
  | @newFolder parent name fs hreach hnone =>
    by_cases hplace : fs.placeOf (parent / s.folderName name) = l
    · -- where nothing was there is a folder now; in neither case a file
      subst hplace
      rw [hnone, FileSystem.entryAt?_put_of_eq_none hnone]
      simp
    · rw [FileSystem.entryAt?_put_of_ne fs hplace]
  | oldFolder hreuse hreach hfolder => rfl
  | file hcontent hreach hfile => rw [FileSystem.entryAt?_put_of_ne fs (hl _ rfl)]

/-! ## Templates -/

/-- The template of a file is the same on a disk that has grown, if the file at its place is the same. -/
theorem body?_congr {f : File} (hgrows : FileSystem.Grows fs fs')
    (hfile : f.templateId ≠ "" → ∀ bytes, fs'.entryAt? (fs.placeOf (s.templatePath f)) = some (.file bytes) ↔
      fs.entryAt? (fs.placeOf (s.templatePath f)) = some (.file bytes)) : s.body? fs' f = s.body? fs f := by
  unfold Settings.body?
  by_cases hid : f.templateId = ""
  · rw [if_pos hid, if_pos hid]
  · rw [if_neg hid, if_neg hid, hgrows.placeOf]
    split
    · next bytes hthere => rw [(hfile hid bytes).mp hthere]
    · next hnone =>
      split
      · next bytes hthere => exact absurd ((hfile hid bytes).mpr hthere) (hnone bytes)
      · rfl

end Settings

/-! ## Plain names -/

namespace Settings

variable {s : Settings} {o : Outline} {fs fs' : FileSystem}

/-- The names that folders and files get are plain components. -/
def HasPlainNames (s : Settings) (o : Outline) : Prop :=
  ∀ p ∈ o.walk, IsPlainComponent (s.folderName p.2.name) ∧ ∀ f ∈ p.2.files, IsPlainComponent (s.fileName f)

instance : Decidable (s.HasPlainNames o) :=
  inferInstanceAs (Decidable (∀ p ∈ o.walk, _ ∧ ∀ f ∈ p.2.files, _))

/-- No template that is read lies where a file is written. -/
def SparesTemplates (s : Settings) (o : Outline) (fs : FileSystem) : Prop :=
  ∀ e ∈ s.filesOf o, e.2.templateId ≠ "" → ∀ e' ∈ s.filesOf o, fs.placeOf (s.templatePath e.2) ≠ fs.placeOf e'.1

instance : Decidable (s.SparesTemplates o fs) :=
  inferInstanceAs (Decidable (∀ e ∈ s.filesOf o, _ → ∀ e' ∈ s.filesOf o, _))

/-- With plain names, the way to a folder leads down. -/
theorem HasPlainNames.plain_of_mem_walk (h : s.HasPlainNames o) {p : List String × Folder} (hp : p ∈ o.walk) :
    ∀ c ∈ p.1.map s.folderName, IsPlainComponent c := by
  intro c hc
  obtain ⟨name, hname, rfl⟩ := List.mem_map.mp hc
  rcases Folder.mem_names_of_mem_walkAll o.folders hp hname with hnil | ⟨q, hq, rfl⟩
  · cases hnil
  · exact (h q hq).1

/-- With plain names, the way to a file leads down. -/
theorem HasPlainNames.plain_of_mem_files (h : s.HasPlainNames o) {p : List String × Folder} {f : File}
    (hp : p ∈ o.walk) (hf : f ∈ p.2.files) : ∀ c ∈ p.1.map s.folderName ++ [s.fileName f], IsPlainComponent c := by
  intro c hc
  rcases List.mem_append.mp hc with hc | hc
  · exact h.plain_of_mem_walk hp c hc
  · rw [List.mem_singleton.mp hc]
    exact (h p hp).2 f hf

/-- With plain names, the path of a file leads down from the output. -/
theorem HasPlainNames.exists_below (h : s.HasPlainNames o) {e : Path × File} (he : e ∈ s.filesOf o) :
    ∃ names, (∀ c ∈ names, IsPlainComponent c) ∧ e.1 = s.outputRoot.below names := by
  obtain ⟨p, hp, he⟩ := List.mem_flatMap.mp he
  obtain ⟨f, hf, rfl⟩ := List.mem_map.mp he
  exact ⟨_, h.plain_of_mem_files hp hf, (Path.below_concat _ _ _).symm⟩

/-- **With plain names, different files have different places.** -/
theorem HasPlainNames.placeOf_inj (h : s.HasPlainNames o) {e e' : Path × File} (he : e ∈ s.filesOf o)
    (he' : e' ∈ s.filesOf o) (hplace : fs.placeOf e.1 = fs.placeOf e'.1) : e.1 = e'.1 := by
  obtain ⟨ms, hms, hem⟩ := h.exists_below he
  obtain ⟨ns, hns, hen⟩ := h.exists_below he'
  rw [hem, hen, FileSystem.placeOf_below_inj hms hns] at hplace
  rw [hem, hen, hplace]

theorem length_filesOf (s : Settings) (o : Outline) : (s.filesOf o).length = o.fileCount :=
  o.length_flatMap_walk fun _ => List.length_map _

end Settings

end Stencil
