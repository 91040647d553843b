import Stencil.Proofs.Run.Stands
import Stencil.Proofs.Run.Stop
import Stencil.Proofs.Run.Turns

/-!
# `Stencil.Proofs.Run.Acts` — what one act does to a disk

## Contents
- **Faults.** What an act that opens a file has met, if it ends with a fault.
- **Acts.** `Generator.Acts` says to which stage an act takes a task, and what becomes of the disk. It does not matter
  what has been printed.
- **Inversion.** Every act of a run that is not for show is one of these (`acts_of_exec`).
- **Laws.** An act makes a disk grow, leaves other places alone, and makes no file appear or vanish where it writes none.
-/

namespace Stencil

open Text

/-! ## Faults -/

namespace Job

variable {s s' : RunState} {fault : Refusal → Fault} {f : Fault}

theorem Passes.eq_of_exec {job : Job Unit} {u : Unit} (hpasses : Passes job) (h : exec job s = (.ok u, s')) :
    s' = s := by
  rw [hpasses s, Prod.mk.injEq] at h
  exact h.2.symm

theorem exec_openFile_eq_ok {path : Path} {l : Location} (h : exec (openFile path fault) s = (.ok l, s')) :
    s.disk.openFile path = .ok (s'.disk, l) := by
  rw [exec_openFile] at h
  split at h
  · next disk l' hopen =>
    cases h
    exact hopen
  · cases h

theorem exec_openFile_eq_error {path : Path} (h : exec (openFile path fault) s = (.error f, s')) :
    s' = s ∧ ∃ r, s.disk.openFile path = .error r ∧ f = fault r := by
  rw [exec_openFile] at h
  split at h
  · cases h
  · next r hr =>
    cases h
    exact ⟨rfl, r, hr, rfl⟩

end Job

namespace Generator

variable {g : Generator} {s s' : RunState} {fault : Fault} {folder : Path} {f : File} {body : String}

theorem exec_requireName_eq_error (h : Job.exec (g.requireName folder f) s = (.error fault, s')) :
    s' = s ∧ ∃ u, fault = .unwritable u := by
  unfold requireName at h
  split at h
  · cases h
  · exact Job.exec_requirePath_eq_error h

theorem passes_requireName {u : Unit} (h : Job.exec (g.requireName folder f) s = (.ok u, s')) :
    (g.requireName folder f).Passes := by
  unfold requireName at h ⊢
  split at h
  · next hloose =>
    rw [if_pos hloose]
    exact Job.passes_pure
  · next hloose =>
    rw [if_neg hloose]
    exact Job.passes_requirePath h

/-- Whether a file can hold its content does not depend on the state. -/
theorem requireText_cases (g : Generator) (f : File) (body : String) :
    (g.requireText f body).Passes ∨ ∃ u, g.requireText f body = throw (.unwritable u) := by
  unfold requireText
  split
  · exact .inl Job.passes_pure
  · split
    · exact .inl Job.passes_pure
    · next u hu => exact .inr ⟨u, rfl⟩

/-- A template that is read as a text is that text. -/
theorem reads_of_exec_readText {fault : Refusal → Fault} (hid : f.templateId ≠ "")
    (h : Job.exec (Job.readText (g.settings.templatePath f) fault) s = (.ok body, s')) :
    s' = s ∧ g.settings.Reads s.disk f body := by
  obtain ⟨hsame, bytes, cs, hread, hdecode, rfl⟩ := Job.exec_readText_eq_ok h
  obtain ⟨hreach, hfile⟩ := FileSystem.readFile_eq_ok_iff.mp hread
  refine ⟨hsame, fun _ => hreach, ?_⟩
  rw [Settings.body?, if_neg hid, hfile]
  simp only [hdecode]

end Generator

/-- The tasks of work are those of its outline. -/
theorem Settings.SparesTemplates.keepsTemplates_work {s : Settings} {o : Outline} {fs : FileSystem}
    (h : s.SparesTemplates o fs) : s.KeepsTemplates fs (s.work o).tasks := by
  rw [tasks_work]
  exact h.keepsTemplates

/-! ## Acts -/

/-- What holds of a part at its stage. A file with an announced template has one. A file that is open is there, and so is
    what has been made, which is what has been reported. -/
def Settings.Fits (s : Settings) (fs : FileSystem) : Part → Prop
  | ⟨.file _ f, .announced⟩ => f.templateId ≠ ""
  | ⟨.file folder f, .opened _ l⟩ => l = fs.placeOf (folder / s.fileName f) ∧ s.Stands fs (.file folder f)
  | ⟨t, .made r⟩ => s.Stands fs t ∧ s.Reports [t] r
  | _ => True

namespace Settings

variable {s : Settings} {fs fs' : FileSystem} {folder : Path} {f : File}

theorem fits_opened {body : String} {l : Location} :
    s.Fits fs ⟨.file folder f, .opened body l⟩ ↔
      l = fs.placeOf (folder / s.fileName f) ∧ s.Stands fs (.file folder f) := Iff.rfl

theorem fits_made {t : Task} {r : Report} : s.Fits fs ⟨t, .made r⟩ ↔ s.Stands fs t ∧ s.Reports [t] r := by
  cases t <;> rfl

theorem stands_file : s.Stands fs (.file folder f) ↔ ∃ bytes, fs.readFile (folder / s.fileName f) = .ok bytes := Iff.rfl

theorem fits_stopped {t : Task} {fault : Fault} : s.Fits fs ⟨t, .stopped fault⟩ := by
  cases t <;> trivial

/-- What fits a part, fits it when the disk has grown. -/
theorem Fits.grows {p : Part} (h : s.Fits fs p) (hgrows : FileSystem.Grows fs fs') : s.Fits fs' p := by
  obtain ⟨t, stage⟩ := p
  cases stage with
  | new => cases t <;> trivial
  | read body => trivial
  | stopped fault => exact fits_stopped
  | announced => cases t <;> exact h
  | opened body l =>
    obtain ⟨hl, hstands⟩ := fits_opened.mp h
    exact fits_opened.mpr ⟨hl.trans (hgrows.placeOf _).symm, hstands.grows hgrows⟩
  | made r =>
    obtain ⟨hstands, hreports⟩ := fits_made.mp h
    exact fits_made.mpr ⟨hstands.grows hgrows, hreports⟩

/-- A file that is open is there. -/
theorem Fits.exists_file {body : String} {l : Location} (h : s.Fits fs ⟨.file folder f, .opened body l⟩) :
    l = fs.placeOf (folder / s.fileName f) ∧ ∃ bytes, fs.entryAt? l = some (.file bytes) := by
  obtain ⟨hl, hstands⟩ := fits_opened.mp h
  obtain ⟨bytes, hread⟩ : ∃ bytes, fs.readFile (folder / s.fileName f) = .ok bytes := hstands
  exact ⟨hl, bytes, hl ▸ (FileSystem.readFile_eq_ok_iff.mp hread).2⟩

end Settings

namespace Generator

variable {g : Generator} {s s' : RunState} {fault : Fault} {folder : Path} {f : File} {body : String}

/-- To which stage an act takes a task on a disk, and what becomes of the disk. -/
inductive Acts (g : Generator) (fs : FileSystem) : {t : Task} → Stage t → Stage t → FileSystem → Prop
  /-- A folder, or the template of a file, is announced. -/
  | announced {t : Task} (hid : ∀ folder f, t = .file folder f → f.templateId ≠ "") :
      Acts g fs (t := t) .new .announced fs
  /-- There is no template to read. -/
  | bare {folder : Path} {f : File} (hid : f.templateId = "") : Acts g fs (t := .file folder f) .new (.read "") fs
  /-- A template is read. -/
  | read {folder : Path} {f : File} {body : String} (hread : g.settings.Reads fs f body) :
      Acts g fs (t := .file folder f) .announced (.read body) fs
  /-- A folder is made, or one that is there is used. -/
  | folder {parent : Path} {name : String} {fs' : FileSystem} (hpasses : (g.requireFolder parent name).Passes)
      (hmade : g.settings.Made (.folder parent name) fs fs') :
      Acts g fs (t := .folder parent name) .announced (.made (.ofFolder (parent / g.settings.folderName name))) fs'
  /-- A file is opened, and is empty now. -/
  | opened {folder : Path} {f : File} {body : String} (hpasses : (g.requireName folder f).Passes)
      (hreach : fs.locate (folder / g.settings.fileName f) = .ok (fs.placeOf (folder / g.settings.fileName f)))
      (hfile : fs.entryAt? (fs.placeOf (folder / g.settings.fileName f)) ≠ some .folder) :
      Acts g fs (t := .file folder f) (.read body) (.opened body (fs.placeOf (folder / g.settings.fileName f)))
        (fs.put (fs.placeOf (folder / g.settings.fileName f)) (.file []))
  /-- A file is written. -/
  | written {folder : Path} {f : File} {body : String} {l : Location} (hpasses : (g.requireText f body).Passes) :
      Acts g fs (t := .file folder f) (.opened body l)
        (.made (.ofFile (folder / g.settings.fileName f) (Placeholder.keys (folder / g.settings.fileName f).name ++
          Placeholder.keys (Placeholder.fill (g.settings.scopeOf f) body))))
        (fs.overwrite l (Utf8.encode (Placeholder.fill (g.settings.scopeOf f) body).toList))
  /-- The task stops before it has done anything. -/
  | stopped {t : Task} {stage : Stage t} {fault : Fault} (hclosed : stage.isOpen = false)
      (h : g.Stops t fs fault fs) : Acts g fs stage (.stopped fault) fs
  /-- No file can hold the true content; the file is left as it is. -/
  | unwritten {folder : Path} {f : File} {body : String} {l : Location} {u : CodePoints.Unwritable} :
      Acts g fs (t := .file folder f) (.opened body l) (.stopped (.unwritable u)) fs

/-! ## Inversion -/

theorem acts_of_folder {parent : Path} {name : String} {stage stage' : Stage (.folder parent name)}
    (hdry : g.settings.dryRun = false) (hahead : stage.ahead ≠ 0)
    (h : Job.exec (g.actOnFolder parent name stage) s = (.ok stage', s')) : g.Acts s.disk stage stage' s'.disk := by
  cases stage with
  | new =>
    obtain ⟨_, s₁, hreport, hwork⟩ := Job.exec_bind_eq_ok h
    simp only [hdry, Bool.false_eq_true, if_false] at hwork
    obtain ⟨rfl, rfl⟩ := Job.exec_pure_eq_ok hwork
    rw [disk_report hreport]
    exact .announced fun _ _ ht => by cases ht
  | announced =>
    obtain ⟨_, s₁, hrequire, hwork⟩ := Job.exec_bind_eq_ok h
    obtain ⟨_, s₂, hmake, hlast⟩ := Job.exec_bind_eq_ok hwork
    obtain ⟨rfl, rfl⟩ := Job.exec_pure_eq_ok hlast
    obtain rfl := exec_requireFolder_eq_ok hrequire
    refine .folder (passes_requireFolder hrequire) ?_
    rcases Job.exec_makeFolder_eq_ok hmake with hmade | ⟨hreuse, hholds, hsame⟩
    · obtain ⟨hreach, hnone, hdisk⟩ := FileSystem.makeFolder_eq_ok hmade
      rw [hdisk]
      exact .newFolder hreach hnone
    · obtain ⟨hreach, hthere⟩ := FileSystem.holdsFolder_eq_ok_true_iff.mp hholds
      rw [hsame]
      exact .oldFolder hreuse hreach hthere
  | made r | stopped f => exact absurd rfl hahead

theorem acts_of_file {stage stage' : Stage (.file folder f)} (hdry : g.settings.dryRun = false)
    (hahead : stage.ahead ≠ 0) (hfits : g.settings.Fits s.disk ⟨.file folder f, stage⟩)
    (h : Job.exec (g.actOnFile folder f stage) s = (.ok stage', s')) : g.Acts s.disk stage stage' s'.disk := by
  cases stage with
  | new =>
    simp only [actOnFile, hdry, Bool.false_eq_true, if_false] at h
    split at h
    · next hid =>
      obtain ⟨rfl, rfl⟩ := Job.exec_pure_eq_ok h
      exact .bare hid
    · next hid =>
      obtain ⟨_, s₁, hreport, hlast⟩ := Job.exec_bind_eq_ok h
      obtain ⟨rfl, rfl⟩ := Job.exec_pure_eq_ok hlast
      rw [disk_report hreport]
      refine .announced fun _ _ ht => ?_
      cases ht
      exact hid
  | announced =>
    obtain ⟨body, s₁, hread, hlast⟩ := Job.exec_bind_eq_ok h
    obtain ⟨rfl, rfl⟩ := Job.exec_pure_eq_ok hlast
    obtain ⟨rfl, hreads⟩ := reads_of_exec_readText hfits hread
    exact .read hreads
  | read body =>
    simp only [actOnFile] at h
    obtain ⟨_, s₁, hrequire, hwork⟩ := Job.exec_bind_eq_ok h
    obtain ⟨l, s₂, hopen, hlast⟩ := Job.exec_bind_eq_ok hwork
    obtain ⟨hstage, hend⟩ := Job.exec_pure_eq_ok hlast
    have hpasses := passes_requireName hrequire
    have hsame := hpasses.eq_of_exec hrequire
    obtain ⟨hreach, hfile, hplace, hdisk⟩ := FileSystem.openFile_eq_ok (Job.exec_openFile_eq_ok hopen)
    rw [hstage, hplace, hend, hdisk, hsame]
    rw [hsame] at hreach hfile
    exact .opened hpasses hreach hfile
  | opened body l =>
    simp only [actOnFile] at h
    obtain ⟨_, s₁, hrequire, hwork⟩ := Job.exec_bind_eq_ok h
    obtain ⟨_, s₂, hwrite, hlast⟩ := Job.exec_bind_eq_ok hwork
    obtain ⟨rfl, rfl⟩ := Job.exec_pure_eq_ok hlast
    -- whether the content can be written does not depend on the state, so it could before as well
    rcases g.requireText_cases f body with hpasses | ⟨u, hthrow⟩
    · obtain rfl := hpasses.eq_of_exec hrequire
      rw [Job.exec_overwrite, Prod.mk.injEq] at hwrite
      rw [← hwrite.2]
      exact .written hpasses
    · rw [hthrow] at hrequire
      cases hrequire
  | made r | stopped f => exact absurd rfl hahead

theorem acts_of_folder_error {parent : Path} {name : String} {stage : Stage (.folder parent name)}
    (hdry : g.settings.dryRun = false)
    (hahead : stage.ahead ≠ 0) (h : Job.exec (g.actOnFolder parent name stage) s = (.error fault, s')) :
    g.Acts s.disk stage (.stopped fault) s'.disk := by
  cases stage with
  | new =>
    rcases Job.exec_bind_eq_error h with hreport | ⟨_, s₁, hreport, hwork⟩
    · exact absurd hreport exec_report_eq_error
    · simp only [hdry, Bool.false_eq_true, if_false] at hwork
      cases hwork
  | announced =>
    simp only [actOnFolder] at h
    rcases Job.exec_bind_eq_error h with hrequire | ⟨_, s₁, hrequire, hwork⟩
    · obtain ⟨rfl, u, rfl⟩ := exec_requireFolder_eq_error hrequire
      exact .stopped rfl .unwritableName
    · obtain rfl := exec_requireFolder_eq_ok hrequire
      rcases Job.exec_bind_eq_error hwork with hmake | ⟨_, s₂, hmake, hlast⟩
      · obtain ⟨rfl, r, hr, rfl⟩ := Job.exec_makeFolder_eq_error hmake
        exact .stopped rfl (.refused (.folder hr))
      · cases hlast
  | made r | stopped f => exact absurd rfl hahead

theorem acts_of_file_error {stage : Stage (.file folder f)} (hdry : g.settings.dryRun = false)
    (hahead : stage.ahead ≠ 0) (hfits : g.settings.Fits s.disk ⟨.file folder f, stage⟩)
    (h : Job.exec (g.actOnFile folder f stage) s = (.error fault, s')) :
    g.Acts s.disk stage (.stopped fault) s'.disk := by
  cases stage with
  | new =>
    simp only [actOnFile, hdry, Bool.false_eq_true, if_false] at h
    split at h
    · cases h
    · rcases Job.exec_bind_eq_error h with hreport | ⟨_, s₁, hreport, hlast⟩
      · exact absurd hreport exec_report_eq_error
      · cases hlast
  | announced =>
    simp only [actOnFile] at h
    rcases Job.exec_bind_eq_error h with hread | ⟨_, s₁, hread, hlast⟩
    · obtain ⟨rfl, ⟨r, hr, rfl⟩ | ⟨bytes, u, hbytes, hu, rfl⟩⟩ := Job.exec_readText_eq_error hread
      · exact .stopped rfl (.refused (.template hfits hr))
      · exact .stopped rfl (.undecodable hbytes hu)
    · cases hlast
  | read body =>
    simp only [actOnFile] at h
    rcases Job.exec_bind_eq_error h with hrequire | ⟨_, s₁, hrequire, hwork⟩
    · obtain ⟨rfl, u, rfl⟩ := exec_requireName_eq_error hrequire
      exact .stopped rfl .unwritableName
    · obtain rfl := (passes_requireName hrequire).eq_of_exec hrequire
      rcases Job.exec_bind_eq_error hwork with hopen | ⟨_, s₂, hopen, hlast⟩
      · obtain ⟨rfl, r, hr, rfl⟩ := Job.exec_openFile_eq_error hopen
        exact .stopped rfl (.refused (.file (FileSystem.writeFile_eq_error_of_openFile hr [])))
      · cases hlast
  | opened body l =>
    simp only [actOnFile] at h
    rcases g.requireText_cases f body with hpasses | ⟨u, hthrow⟩
    · rw [Job.exec_bind, hpasses s] at h
      cases h
    · rw [hthrow] at h
      cases h
      exact .unwritten
  | made r | stopped f => exact absurd rfl hahead

/-- **Every act is one of these**, in a run that is not for show. -/
theorem acts_of_exec {t : Task} {stage stage' : Stage t} (hdry : g.settings.dryRun = false)
    (hahead : stage.ahead ≠ 0) (hfits : g.settings.Fits s.disk ⟨t, stage⟩)
    (h : Job.exec (g.actOn ⟨t, stage⟩) s = (.ok ⟨t, stage'⟩, s')) : g.Acts s.disk stage stage' s'.disk := by
  rw [exec_actOn, Prod.mk.injEq, Except.ok.injEq, Part.mk.injEq, heq_eq_eq] at h
  obtain ⟨⟨-, rfl⟩, rfl⟩ := h
  rw [outcomeOf]
  cases hact : Job.exec (g.act t stage) s with
  | mk result s₁ =>
    cases t with
    | folder parent name =>
      cases result with
      | ok stage₁ => exact acts_of_folder hdry hahead hact
      | error f => exact acts_of_folder_error hdry hahead hact
    | file folder f =>
      cases result with
      | ok stage₁ => exact acts_of_file hdry hahead hfits hact
      | error f => exact acts_of_file_error hdry hahead hfits hact

/-! ## Laws -/

variable {t : Task} {stage stage' : Stage t} {fs fs' : FileSystem} {l : Location}

theorem Acts.grows (h : g.Acts fs stage stage' fs') (hfits : g.settings.Fits fs ⟨t, stage⟩) :
    FileSystem.Grows fs fs' := by
  cases h with
  | announced hid | bare hid | read hread | stopped hclosed h | unwritten => exact .refl fs
  | folder hpasses hmade => exact hmade.grows
  | opened hpasses hreach hfile => exact FileSystem.grows_put_file hfile _
  | written hpasses =>
    obtain ⟨-, bytes, hfile⟩ := hfits.exists_file
    rw [FileSystem.overwrite_of_entryAt? hfile]
    exact FileSystem.grows_put_file (by simp [hfile]) _

/-- An act leaves other places alone. -/
theorem Acts.frame (h : g.Acts fs stage stage' fs') (hfits : g.settings.Fits fs ⟨t, stage⟩)
    (hl : fs.placeOf (g.settings.pathOf t) ≠ l) : fs'.entryAt? l = fs.entryAt? l := by
  cases h with
  | announced hid | bare hid | read hread | stopped hclosed h | unwritten => rfl
  | folder hpasses hmade => exact hmade.frame hl
  | opened hpasses hreach hfile => exact FileSystem.entryAt?_put_of_ne fs hl _
  | @written folder f body place hpasses =>
    obtain ⟨hplace, bytes, hfile⟩ := hfits.exists_file
    rw [FileSystem.overwrite_of_entryAt? hfile]
    exact FileSystem.entryAt?_put_of_ne fs (hplace ▸ hl) _

/-- An act makes no file appear, vanish or change where its task writes none. -/
theorem Acts.file_iff (h : g.Acts fs stage stage' fs') (hfits : g.settings.Fits fs ⟨t, stage⟩)
    (hl : ∀ e, g.settings.fileOf? t = some e → fs.placeOf e.1 ≠ l) (bytes : Bytes) :
    fs'.entryAt? l = some (.file bytes) ↔ fs.entryAt? l = some (.file bytes) := by
  cases t with
  | folder parent name =>
    cases h with
    | announced hid | stopped hclosed h => rfl
    | folder hpasses hmade => exact hmade.file_iff hl bytes
  | file folder f =>
    have hplace := hl (folder / g.settings.fileName f, f) rfl
    rw [h.frame hfits hplace]

/-- What an act comes to fits. -/
theorem Acts.fits (h : g.Acts fs stage stage' fs') (hfits : g.settings.Fits fs ⟨t, stage⟩) :
    g.settings.Fits fs' ⟨t, stage'⟩ := by
  cases h with
  | @announced t hid =>
    cases t with
    | folder parent name => trivial
    | file folder f => exact hid folder f rfl
  | bare hid | read hread => trivial
  | stopped hclosed h | unwritten => exact Settings.fits_stopped
  | folder hpasses hmade => exact Settings.fits_made.mpr ⟨hmade.stands, g.settings.reports_folder _ _⟩
  | @opened folder f body hpasses hreach hfile =>
    have hread := FileSystem.readFile_put hreach hfile []
    have hplace := FileSystem.placeOf_put fs (fs.placeOf (folder / g.settings.fileName f)) (.file [])
      (folder / g.settings.fileName f)
    exact Settings.fits_opened.mpr ⟨hplace.symm, Settings.stands_file.mpr ⟨[], hread⟩⟩
  | @written folder f body place hpasses =>
    have hgrows := (Acts.written (g := g) (l := place) hpasses).grows hfits
    have hstands := (Settings.fits_opened.mp hfits).2
    exact Settings.fits_made.mpr ⟨hstands.grows hgrows, g.settings.reports_file _ _ _⟩

end Generator

end Stencil
