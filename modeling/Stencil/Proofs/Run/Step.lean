import Stencil.Proofs.FileSystem.Place
import Stencil.Proofs.Run.Plan

/-!
# `Stencil.Proofs.Run.Step` — what one task does to a disk

## Contents
- **Contents.** `Settings.content?` reads off a disk what a file will hold: its template, looked up at its
  place, completed.
- **Steps.** `Settings.Made` says what has become of a disk when a task has been done.
- **Performing.** A task that is performed with success makes just that (`made_of_perform`), and so does a
  list of tasks, one after the other (`makes_of_performAll`).
- **Dry runs.** For show, everything succeeds and nothing changes (`exec_performAll_of_dryRun`).
-/

namespace Stencil

open Text

/-! ## Contents -/

namespace Settings

variable (s : Settings)

/-- The template of a file on a disk, as text; nothing if the file has no template. -/
def body? (fs : FileSystem) (f : File) : Option String :=
  if f.templateId = "" then some ""
  else
    match fs.entryAt? (fs.placeOf (s.templatePath f)) with
    | some (.file bytes) =>
      match Utf8.decode bytes with
      | .ok cs => some (String.ofList (normalizeNewlines cs))
      | .error _ => none
    | _ => none

/-- What a file will hold: its template with the placeholders completed. -/
def content? (fs : FileSystem) (f : File) : Option String :=
  (s.body? fs f).map (Placeholder.fill (s.scopeOf f))

/-! ## Steps -/

/-- What has become of a disk when a task has been done. -/
inductive Made : Task → FileSystem → FileSystem → Prop
  | newFolder {parent : Path} {name : String} {fs : FileSystem}
      (hreach : fs.locate (parent / s.folderName name) = .ok (fs.placeOf (parent / s.folderName name)))
      (hnone : fs.entryAt? (fs.placeOf (parent / s.folderName name)) = none) :
      Made (.folder parent name) fs (fs.put (fs.placeOf (parent / s.folderName name)) .folder)
  | oldFolder {parent : Path} {name : String} {fs : FileSystem} (hreuse : s.allowExisting = true)
      (hreach : fs.locate (parent / s.folderName name) = .ok (fs.placeOf (parent / s.folderName name)))
      (hfolder : fs.entryAt? (fs.placeOf (parent / s.folderName name)) = some .folder) :
      Made (.folder parent name) fs fs
  | file {folder : Path} {f : File} {fs : FileSystem} {content : String}
      (hcontent : s.content? fs f = some content)
      (hreach : fs.locate (folder / s.fileName f) = .ok (fs.placeOf (folder / s.fileName f)))
      (hfile : fs.entryAt? (fs.placeOf (folder / s.fileName f)) ≠ some .folder) :
      Made (.file folder f) fs
        (fs.put (fs.placeOf (folder / s.fileName f)) (.file (Utf8.encode content.toList)))

end Settings

/-! ## Performing -/

namespace Job

variable {s s' : RunState} {fault : Refusal → Fault}

/-- A folder that is there after making it was made or, if that is allowed, was there before. -/
theorem exec_makeFolder_eq_ok {path : Path} {reuse : Bool} {u : Unit}
    (h : exec (makeFolder path reuse fault) s = (.ok u, s')) :
    s.disk.makeFolder path = .ok s'.disk ∨
      reuse = true ∧ s.disk.holdsFolder path = .ok true ∧ s'.disk = s.disk := by
  unfold makeFolder at h
  obtain ⟨s₁, s₂, hget, h⟩ := exec_bind_eq_ok h
  cases hget
  dsimp only at h
  split at h
  · -- making it is done once more, to change the disk
    next disk hmade =>
    rw [exec_change, hmade] at h
    cases h
    exact .inl hmade
  · cases h
  · split at h
    · next hreuse =>
      split at h
      · next hfolder => cases h; exact .inr ⟨hreuse, hfolder, rfl⟩
      · cases h
      · cases h
    · cases h

/-- A folder that can be reached is made, or used if it is there and may be used. -/
theorem exec_makeFolder_of_entryAt? {path : Path} {l : Location} {reuse : Bool} (fault : Refusal → Fault)
    (hreach : s.disk.locate path = .ok l)
    (h : s.disk.entryAt? l = none ∨ reuse = true ∧ s.disk.entryAt? l = some .folder) :
    ∃ s', exec (makeFolder path reuse fault) s = (.ok (), s') := by
  have hget : exec (get : Job RunState) s = (.ok s, s) := rfl
  rw [makeFolder, exec_bind, hget]
  rcases h with hnone | ⟨rfl, hfolder⟩
  · simp only [FileSystem.makeFolder_of_locate hreach hnone, exec_change]
    exact ⟨_, rfl⟩
  · have hmake : s.disk.makeFolder path = .error (.cause .alreadyExists) := by
      rw [FileSystem.makeFolder, hreach]
      simp only [hfolder]
    obtain rfl := FileSystem.locate_eq_ok hreach
    have hholds := FileSystem.holdsFolder_eq_ok_true_iff.mpr ⟨hreach, hfolder⟩
    simp only [hmake, hholds, if_true]
    exact ⟨s, rfl⟩

theorem exec_ask_eq_ok {α : Type} {question : FileSystem → Except Refusal α} {a : α}
    (h : exec (ask question fault) s = (.ok a, s')) : question s.disk = .ok a ∧ s' = s := by
  rw [exec_ask] at h
  cases hq : question s.disk with
  | ok b =>
    rw [hq] at h
    cases h
    exact ⟨rfl, rfl⟩
  | error r => rw [hq] at h; cases h

/-- A text that has been read is that of a file, with its line breaks made alike. -/
theorem exec_readText_eq_ok {path : Path} {body : String} (h : exec (readText path fault) s = (.ok body, s')) :
    s' = s ∧ ∃ bytes cs, s.disk.readFile path = .ok bytes ∧ Utf8.decode bytes = .ok cs ∧
      body = String.ofList (normalizeNewlines cs) := by
  unfold readText at h
  obtain ⟨bytes, s₁, hask, hdecode⟩ := exec_bind_eq_ok h
  obtain ⟨hread, hsame⟩ := exec_ask_eq_ok hask
  split at hdecode
  · next cs hcs =>
    cases hdecode
    exact ⟨hsame, bytes, cs, hread, hcs, rfl⟩
  · cases hdecode

/-- A text that has been written is on the disk. -/
theorem exec_writeText_eq_ok {path : Path} {text : String} {u : Unit}
    (h : exec (writeText path text fault) s = (.ok u, s')) :
    s.disk.writeFile path (Utf8.encode text.toList) = .ok s'.disk := by
  unfold writeText at h
  rw [exec_change] at h
  split at h
  · next disk hdisk => cases h; exact hdisk
  · cases h

theorem exec_requirePath_eq_ok {folder : Path} {name : CodePoints} {u : Unit}
    (h : exec (requirePath folder name) s = (.ok u, s')) : s' = s := by
  unfold requirePath at h
  split at h
  · cases h; rfl
  · cases h

theorem exec_requireContent_eq_ok {path : Path} {content : CodePoints} {u : Unit}
    (h : exec (requireContent path content fault) s = (.ok u, s')) : s' = s := by
  unfold requireContent at h
  split at h
  · cases h; rfl
  · obtain ⟨_, s₁, -, h⟩ := exec_bind_eq_ok h
    cases h

end Job

namespace Generator

variable {g : Generator} {s s' : RunState}

/-- Progress lines leave the disk as it is. -/
theorem disk_report {p : Console.Progress} {u : Unit} (h : Job.exec (g.report p) s = (.ok u, s')) :
    s'.disk = s.disk := by
  unfold report at h
  split at h <;> cases h <;> rfl

theorem exec_requireFolder_eq_ok {parent : Path} {name : String} {u : Unit}
    (h : Job.exec (g.requireFolder parent name) s = (.ok u, s')) : s' = s := by
  unfold requireFolder at h
  split at h
  · cases h; rfl
  · exact Job.exec_requirePath_eq_ok h

theorem exec_requireFile_eq_ok {folder path : Path} {f : File} {body : String} {u : Unit}
    (h : Job.exec (g.requireFile folder path f body) s = (.ok u, s')) : s' = s := by
  unfold requireFile at h
  split at h
  · cases h; rfl
  · obtain ⟨_, s₁, hpath, hcontent⟩ := Job.exec_bind_eq_ok h
    rw [← Job.exec_requirePath_eq_ok hpath]
    exact Job.exec_requireContent_eq_ok hcontent

/-- The template that is read is the one on the disk. -/
theorem exec_template_eq_ok {f : File} {body : String} (h : Job.exec (g.template f) s = (.ok body, s')) :
    s'.disk = s.disk ∧ g.settings.body? s.disk f = some body := by
  unfold template at h
  unfold Settings.body?
  split at h
  · next hid => cases h; exact ⟨rfl, if_pos hid⟩
  · next hid =>
    obtain ⟨_, s₁, hreport, htext⟩ := Job.exec_bind_eq_ok h
    have hdisk := disk_report hreport
    obtain ⟨rfl, bytes, cs, hread, hdecode, rfl⟩ := Job.exec_readText_eq_ok htext
    rw [hdisk] at hread ⊢
    obtain ⟨-, hfile⟩ := FileSystem.readFile_eq_ok_iff.mp hread
    rw [if_neg hid, hfile]
    simp only [hdecode, and_self]

/-- A folder that is made, other than for show, has passed its check, and was made or was there. -/
theorem exec_makeFolder_eq_ok {parent path : Path} {name : String} (hdry : g.settings.dryRun = false)
    (h : Job.exec (g.makeFolder parent name) s = (.ok path, s')) :
    path = parent / g.settings.folderName name ∧
      (∃ s₁, Job.exec (g.requireFolder parent name) s₁ = (.ok (), s₁)) ∧
      (s.disk.makeFolder path = .ok s'.disk ∨
        g.settings.allowExisting = true ∧ s.disk.holdsFolder path = .ok true ∧ s'.disk = s.disk) := by
  unfold makeFolder at h
  obtain ⟨_, s₁, hreport, hwork⟩ := Job.exec_bind_eq_ok h
  rw [← disk_report hreport]
  simp only [hdry, Bool.false_eq_true, if_false] at hwork
  -- the check of the true name changes nothing
  obtain ⟨_, s₂, hrequire, hrest⟩ := Job.exec_bind_eq_ok hwork
  obtain rfl := exec_requireFolder_eq_ok hrequire
  obtain ⟨_, s₃, hmake, hlast⟩ := Job.exec_bind_eq_ok hrest
  obtain ⟨hpath, hend⟩ := Job.exec_pure_eq_ok hlast
  rw [hpath, hend]
  exact ⟨rfl, ⟨s₂, hrequire⟩, Job.exec_makeFolder_eq_ok hmake⟩

/-- A file that is made, other than for show, has passed its check, and is written with its template completed. -/
theorem exec_makeFile_eq_ok {folder : Path} {f : File} {r : Report} (hdry : g.settings.dryRun = false)
    (h : Job.exec (g.makeFile folder f) s = (.ok r, s')) :
    ∃ body s₁, Job.exec (g.template f) s = (.ok body, s₁) ∧
      Job.exec (g.requireFile folder (folder / g.settings.fileName f) f body) s₁ = (.ok (), s₁) ∧
      s.disk.writeFile (folder / g.settings.fileName f)
        (Utf8.encode (Placeholder.fill (g.settings.scopeOf f) body).toList) = .ok s'.disk ∧
      r = .ofFile (folder / g.settings.fileName f) (Placeholder.keys (folder / g.settings.fileName f).name ++
        Placeholder.keys (Placeholder.fill (g.settings.scopeOf f) body)) := by
  unfold makeFile at h
  simp only [hdry, Bool.false_eq_true, if_false] at h
  obtain ⟨body, s₁, htemplate, hwork⟩ := Job.exec_bind_eq_ok h
  obtain ⟨_, s₂, hrequire, hrest⟩ := Job.exec_bind_eq_ok hwork
  obtain rfl := exec_requireFile_eq_ok hrequire
  obtain ⟨_, s₃, hwrite, hlast⟩ := Job.exec_bind_eq_ok hrest
  obtain ⟨rfl, rfl⟩ := Job.exec_pure_eq_ok hlast
  have hwritten := Job.exec_writeText_eq_ok hwrite
  rw [(exec_template_eq_ok htemplate).1] at hwritten
  exact ⟨body, s₂, htemplate, hrequire, hwritten, rfl⟩

/-- **One step.** A task that is performed with success, other than for show, does what it says. -/
theorem made_of_perform {t : Task} {r : Report} (hdry : g.settings.dryRun = false)
    (h : Job.exec (g.perform t) s = (.ok r, s')) : g.settings.Made t s.disk s'.disk := by
  cases t with
  | folder parent name =>
    obtain ⟨path, s₁, hfolder, hlast⟩ := Job.exec_bind_eq_ok h
    obtain ⟨-, rfl⟩ := Job.exec_pure_eq_ok hlast
    obtain ⟨hpath, -, hmake⟩ := exec_makeFolder_eq_ok hdry hfolder
    rw [hpath] at hmake
    rcases hmake with hmade | ⟨hreuse, hholds, hsame⟩
    · obtain ⟨hreach, hnone, hdisk⟩ := FileSystem.makeFolder_eq_ok hmade
      rw [hdisk]
      exact .newFolder hreach hnone
    · obtain ⟨hreach, hthere⟩ := FileSystem.holdsFolder_eq_ok_true_iff.mp hholds
      rw [hsame]
      exact .oldFolder hreuse hreach hthere
  | file folder f =>
    obtain ⟨body, s₁, htemplate, -, hwritten, -⟩ := exec_makeFile_eq_ok hdry h
    obtain ⟨-, hbody⟩ := exec_template_eq_ok htemplate
    obtain ⟨hreach, hfile, hdisk⟩ := FileSystem.writeFile_eq_ok hwritten
    rw [hdisk]
    refine .file ?_ hreach hfile
    rw [Settings.content?, hbody]
    rfl

theorem exec_report (p : Console.Progress) : ∃ s', Job.exec (g.report p) s = (.ok (), s') ∧ s'.disk = s.disk := by
  unfold report
  split
  · exact ⟨s, rfl, rfl⟩
  · exact ⟨_, rfl, rfl⟩

/-- For show, a task is always performed, and the disk is left as it is. -/
theorem exec_perform_of_dryRun (hdry : g.settings.dryRun = true) (t : Task) :
    ∃ r s', Job.exec (g.perform t) s = (.ok r, s') ∧ s'.disk = s.disk := by
  cases t with
  | folder parent name =>
    obtain ⟨s', hreport, hdisk⟩ :=
      exec_report (g := g) (s := s) (.creatingFolder (parent / g.settings.folderName name))
    refine ⟨.ofFolder (parent / g.settings.folderName name), s', ?_, hdisk⟩
    rw [perform, makeFolder, Job.exec_bind, Job.exec_bind, hreport]
    simp only [hdry, if_true, Job.exec_pure]
  | file folder f =>
    refine ⟨.ofFile (folder / g.settings.fileName f) (Placeholder.keys (folder / g.settings.fileName f).name), s, ?_,
      rfl⟩
    rw [perform, makeFile]
    simp only [hdry, if_true, Job.exec_pure]

/-- **A dry run always succeeds, and leaves the disk as it is.** -/
theorem exec_performAll_of_dryRun (hdry : g.settings.dryRun = true) (ts : List Task) :
    ∃ r s', Job.exec (g.performAll ts) s = (.ok r, s') ∧ s'.disk = s.disk := by
  induction ts generalizing s with
  | nil => exact ⟨{}, s, rfl, rfl⟩
  | cons t ts ih =>
    obtain ⟨first, s₁, hfirst, hdisk₁⟩ := exec_perform_of_dryRun (s := s) hdry t
    obtain ⟨others, s₂, hothers, hdisk₂⟩ := ih (s := s₁)
    have hall := g.exec_performAll_cons_eq_ok_iff.mpr ⟨first, s₁, others, hfirst, hothers, rfl⟩
    exact ⟨first.extend others, s₂, hall, hdisk₂.trans hdisk₁⟩

end Generator

end Stencil
