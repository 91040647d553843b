import Stencil.Proofs.Run.Feasible

/-!
# `Stencil.Proofs.Run.Stands` — what stands, and what is read

## Contents
- **Outcomes.** A step puts what its task makes at its place (`Made.eq_putAll`). To put what is there changes nothing.
- **Templates.** `Settings.KeepsTemplates` says that no template that tasks read lies where they write, and
  `Settings.SameTemplates` that two disks hold the same ones.
- **What stands.** What a task has made stands, however the disk grows (`Settings.Stands`), and is not in its way.
-/

namespace Stencil

open Text

/-! ## Outcomes -/

namespace FileSystem

variable {fs : FileSystem} {l : Location} {e : Entry}

/-- Puts entries at places, one after the other. Nothing is put at the root, which is a folder at all times. -/
def putAll (fs : FileSystem) (es : List (Location × Entry)) : FileSystem :=
  { fs with entries := Entries.merge fs.entries (es.filter fun e => e.1 ≠ []) }

theorem putAll_cons (fs : FileSystem) (e : Location × Entry) (es : List (Location × Entry)) :
    fs.putAll (e :: es) = (fs.putAll [e]).putAll es := by
  by_cases h : e.1 = [] <;> simp [putAll, h]

theorem putAll_append (fs : FileSystem) (es es' : List (Location × Entry)) :
    fs.putAll (es ++ es') = (fs.putAll es).putAll es' := by
  induction es generalizing fs with
  | nil => rfl
  | cons e es ih => rw [List.cons_append, putAll_cons, ih, ← putAll_cons]

theorem putAll_singleton (h : l ≠ []) (e : Entry) : fs.putAll [(l, e)] = fs.put l e := by
  simp [putAll, put, h]

/-- To put what is there changes nothing. -/
theorem putAll_singleton_eq_self (h : fs.entryAt? l = some e) : fs.putAll [(l, e)] = fs := by
  cases l with
  | nil => rfl
  | cons n ns => rw [putAll_singleton (List.cons_ne_nil n ns), put, Entries.insert_eq_self h]

/-- What is put somewhere without a difference to any place changes nothing. -/
theorem putAll_eq_self {es : List (Location × Entry)} (h : ∀ l, (fs.putAll es).entryAt? l = fs.entryAt? l) :
    fs.putAll es = fs := by
  have hmerge : Entries.merge fs.entries (es.filter fun e => e.1 ≠ []) = fs.entries := by
    refine Entries.merge_eq_self_of_get? fun l hl => ?_
    obtain ⟨e, he, rfl⟩ := List.mem_map.mp hl
    have hne : e.1 ≠ [] := by simpa using (List.mem_filter.mp he).2
    have hplace := h e.1
    cases hkey : e.1 with
    | nil => exact absurd hkey hne
    | cons n ns =>
      rw [hkey] at hplace
      exact hplace
  rw [putAll, hmerge]

end FileSystem

namespace Settings

variable {s : Settings} {fs fs' : FileSystem} {t : Task} {ts : List Task}

/-- What a task makes on a disk from which its template is read, with its place. -/
def outcome (s : Settings) (fs : FileSystem) (t : Task) : Location × Entry := (fs.placeOf (s.pathOf t), s.entryOf fs t)

/-- **One step** puts its outcome on the disk. -/
theorem Made.eq_putAll (h : s.Made t fs fs') : fs' = fs.putAll [s.outcome fs t] := by
  cases h with
  | @newFolder parent name fs hreach hnone =>
    have hfile : fs.entryAt? (fs.placeOf (parent / s.folderName name)) ≠ some .folder := by simp [hnone]
    exact (FileSystem.putAll_singleton (FileSystem.ne_nil_of_entryAt? hfile) _).symm
  | oldFolder hreuse hreach hfolder => exact (FileSystem.putAll_singleton_eq_self hfolder).symm
  | @file folder f fs content hcontent hreach hfile =>
    have hentry : s.entryOf fs (.file folder f) = .file (Utf8.encode content.toList) := by
      rw [entryOf, hcontent]
      rfl
    rw [outcome, hentry]
    exact (FileSystem.putAll_singleton (FileSystem.ne_nil_of_entryAt? hfile) _).symm

/-! ## Templates -/

/-- No template that the tasks read lies where they write. -/
def KeepsTemplates (s : Settings) (fs : FileSystem) (ts : List Task) : Prop :=
  ∀ e ∈ ts.filterMap s.fileOf?, e.2.templateId ≠ "" →
    ∀ e' ∈ ts.filterMap s.fileOf?, fs.placeOf (s.templatePath e.2) ≠ fs.placeOf e'.1

theorem SparesTemplates.keepsTemplates {o : Outline} (h : s.SparesTemplates o fs) :
    s.KeepsTemplates fs (s.plan o) := by
  unfold KeepsTemplates
  rw [filterMap_fileOf?_plan]
  exact h

theorem KeepsTemplates.grows (h : s.KeepsTemplates fs ts) (hgrows : FileSystem.Grows fs fs') :
    s.KeepsTemplates fs' ts := by
  intro e he hid e' he'
  rw [hgrows.placeOf, hgrows.placeOf]
  exact h e he hid e' he'

/-- Two disks hold the same templates for tasks. -/
def SameTemplates (s : Settings) (fs fs' : FileSystem) (ts : List Task) : Prop :=
  ∀ e ∈ ts.filterMap s.fileOf?, s.body? fs' e.2 = s.body? fs e.2

theorem SameTemplates.symm (h : s.SameTemplates fs fs' ts) : s.SameTemplates fs' fs ts :=
  fun e he => (h e he).symm

theorem SameTemplates.trans {fs'' : FileSystem} (h : s.SameTemplates fs fs' ts) (h' : s.SameTemplates fs' fs'' ts) :
    s.SameTemplates fs fs'' ts := fun e he => (h' e he).trans (h e he)

theorem SameTemplates.mono {us : List Task} (h : s.SameTemplates fs fs' ts) (hsub : us ⊆ ts) :
    s.SameTemplates fs fs' us := fun e he => h e (List.filterMap_subset _ hsub he)

theorem SameTemplates.of_mem (h : s.SameTemplates fs fs' ts) (ht : t ∈ ts) : s.SameTemplates fs fs' [t] :=
  h.mono (List.cons_subset.mpr ⟨ht, List.nil_subset ts⟩)

theorem SameTemplates.content? {folder : Path} {f : File} (h : s.SameTemplates fs fs' ts) (hf : .file folder f ∈ ts) :
    s.content? fs' f = s.content? fs f := by
  have hbody := h (folder / s.fileName f, f) (List.mem_filterMap.mpr ⟨_, hf, rfl⟩)
  rw [Settings.content?, Settings.content?, hbody]

/-! ## What stands -/

/-- What a task makes is there: a folder, or a file with whatever bytes. -/
def Stands (s : Settings) (fs : FileSystem) : Task → Prop
  | .folder parent name => fs.holdsFolder (parent / s.folderName name) = .ok true
  | .file folder f => ∃ bytes, fs.readFile (folder / s.fileName f) = .ok bytes

theorem Made.stands (h : s.Made t fs fs') : s.Stands fs' t := by
  cases t with
  | folder parent name => exact h.holdsFolder rfl
  | file folder f =>
    obtain ⟨content, -, hread⟩ := h.readFile rfl
    exact ⟨_, hread⟩

/-- What stands, stands when the disk has grown. -/
theorem Stands.grows (h : s.Stands fs t) (hgrows : FileSystem.Grows fs fs') : s.Stands fs' t := by
  cases t with
  | folder parent name => exact hgrows.holdsFolder h
  | file folder f =>
    obtain ⟨bytes, hread⟩ := h
    obtain ⟨hreach, hfile⟩ := FileSystem.readFile_eq_ok_iff.mp hread
    obtain ⟨bytes', hfile'⟩ := hgrows.file _ bytes hfile
    refine ⟨bytes', FileSystem.readFile_eq_ok_iff.mpr ?_⟩
    rw [hgrows.placeOf]
    exact ⟨hgrows.locate hreach, hfile'⟩

end Settings

end Stencil
