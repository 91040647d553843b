import Stencil.Proofs.FileSystem.Reach
import Stencil.Proofs.Run.Makes
import Stencil.Proofs.Run.Order

/-!
# `Stencil.Proofs.Run.Feasible` — when a task can be done

## Contents
- **Checks.** A job `Passes` if it has nothing to object, whatever the state.
- **Feasibility.** `Generator.Can` says what a task needs apart from an open folder: that its checks pass, that its
  template can be read, and that nothing is in its way. What it makes then and what it reports are read off the disk
  (`Settings.entryOf`, `Generator.resultOf`).
- **Performing.** A task that is performed with success could be done, and what can be done is performed with success
  (`can_of_exec_perform`, `exec_perform_of_can`).
-/

namespace Stencil

open Text

/-! ## Checks -/

namespace Job

variable {s s' : RunState} {fault : Refusal → Fault}

/-- A check that succeeds from every state, and changes nothing. -/
def Passes (job : Job Unit) : Prop := ∀ s, exec job s = (.ok (), s)

theorem passes_pure : Passes (pure ()) := fun _ => rfl

theorem Passes.bind {job job' : Job Unit} (h : Passes job) (h' : Passes job') : Passes (do job; job') := by
  intro s
  rw [exec_bind, h s]
  exact h' s

/-- Whether a path can be given to the system does not depend on the state. -/
theorem passes_requirePath {folder : Path} {name : CodePoints} {u : Unit}
    (h : exec (requirePath folder name) s = (.ok u, s')) : Passes (requirePath folder name) := by
  unfold requirePath at h ⊢
  split at h
  · exact passes_pure
  · cases h

/-- Whether a file can hold a content does not depend on the state. -/
theorem passes_requireContent {path : Path} {content : CodePoints} {u : Unit}
    (h : exec (requireContent path content fault) s = (.ok u, s')) : Passes (requireContent path content fault) := by
  unfold requireContent at h ⊢
  split at h
  · exact passes_pure
  · obtain ⟨_, s₁, -, hthrow⟩ := exec_bind_eq_ok h
    cases hthrow

end Job

/-! ## Feasibility -/

namespace Settings

variable {s : Settings} {fs fs' : FileSystem} {t : Task} {f : File} {body : String}

/-- Whether the template of a file is read as a text: it can be reached, and it is that text. -/
structure Reads (s : Settings) (fs : FileSystem) (f : File) (body : String) : Prop where
  reach : f.templateId ≠ "" → fs.locate (s.templatePath f) = .ok (fs.placeOf (s.templatePath f))
  body : s.body? fs f = some body

/-- What a task makes on a disk from which its template is read. -/
def entryOf (s : Settings) (fs : FileSystem) : Task → Entry
  | .folder _ _ => .folder
  | .file _ f => .file (Utf8.encode ((s.content? fs f).getD "").toList)

/-- What has been done is there. -/
theorem Made.entryAt? (h : s.Made t fs fs') :
    fs.locate (s.pathOf t) = .ok (fs.placeOf (s.pathOf t)) ∧
      fs'.entryAt? (fs.placeOf (s.pathOf t)) = some (s.entryOf fs t) := by
  cases h with
  | @newFolder parent name fs hreach hnone =>
    exact ⟨hreach, FileSystem.entryAt?_put_of_eq_none hnone _⟩
  | oldFolder hreuse hreach hfolder => exact ⟨hreach, hfolder⟩
  | @file folder f fs content hcontent hreach hfile =>
    refine ⟨hreach, ?_⟩
    rw [entryOf, hcontent]
    exact FileSystem.entryAt?_put_self fs (FileSystem.ne_nil_of_entryAt? hfile) _

/-- Whether nothing is in the way of a task. -/
def Free (s : Settings) (fs : FileSystem) : Task → Prop
  | .folder parent name =>
    fs.entryAt? (fs.placeOf (parent / s.folderName name)) = none ∨
      s.allowExisting = true ∧ fs.entryAt? (fs.placeOf (parent / s.folderName name)) = some .folder
  | .file folder f => fs.entryAt? (fs.placeOf (folder / s.fileName f)) ≠ some .folder

/-- Nothing was in the way of what has been done. -/
theorem Made.free (h : s.Made t fs fs') : s.Free fs t := by
  cases h with
  | newFolder hreach hnone => exact .inl hnone
  | oldFolder hreuse hreach hfolder => exact .inr ⟨hreuse, hfolder⟩
  | file hcontent hreach hfile => exact hfile

/-- Whether something is in the way of a task is seen at its place. -/
theorem free_congr (hstart : fs'.workingFolder = fs.workingFolder)
    (hown : fs'.entryAt? (fs.placeOf (s.pathOf t)) = fs.entryAt? (fs.placeOf (s.pathOf t))) :
    s.Free fs' t ↔ s.Free fs t := by
  have hplace := FileSystem.placeOf_eq_of_workingFolder hstart (s.pathOf t)
  cases t <;> simp only [pathOf] at hplace hown <;> rw [Free, Free, hplace, hown]

/-- The same template is read from disks that agree on the way to it. -/
theorem reads_congr (hstart : fs'.workingFolder = fs.workingFolder)
    (h : f.templateId ≠ "" → ∀ l ∈ fs.trail (s.templatePath f), fs'.entryAt? l = fs.entryAt? l) :
    s.Reads fs' f body ↔ s.Reads fs f body := by
  have hplace := FileSystem.placeOf_eq_of_workingFolder hstart (s.templatePath f)
  have hreach : (f.templateId ≠ "" → fs'.locate (s.templatePath f) = .ok (fs'.placeOf (s.templatePath f))) ↔
      (f.templateId ≠ "" → fs.locate (s.templatePath f) = .ok (fs.placeOf (s.templatePath f))) := by
    rw [hplace]
    exact forall_congr' fun hid => by rw [FileSystem.locate_eq_of_trail hstart (h hid)]
  have hbody (hr : f.templateId ≠ "" → fs.locate (s.templatePath f) = .ok (fs.placeOf (s.templatePath f))) :
      s.body? fs' f = s.body? fs f := by
    rw [body?, body?]
    by_cases hid : f.templateId = ""
    · rw [if_pos hid, if_pos hid]
    · -- the template lies at the end of its trail
      rw [if_neg hid, if_neg hid, hplace, h hid _ (FileSystem.mem_trail_of_locate (hr hid))]
  constructor
  · intro hr
    have hthere := hreach.mp hr.reach
    exact ⟨hthere, (hbody hthere).symm.trans hr.body⟩
  · intro hr
    exact ⟨hreach.mpr hr.reach, (hbody hr.reach).trans hr.body⟩

end Settings

namespace Generator

variable {g : Generator} {fs fs' : FileSystem} {t : Task} {s s' : RunState} {f : File} {body : String}

/-- What a task needs, apart from an open folder to work in. -/
def Can (g : Generator) (fs : FileSystem) : Task → Prop
  | .folder parent name => (g.requireFolder parent name).Passes ∧ g.settings.Free fs (.folder parent name)
  | .file folder f =>
    (∃ body, g.settings.Reads fs f body ∧ (g.requireFile folder (folder / g.settings.fileName f) f body).Passes) ∧
      g.settings.Free fs (.file folder f)

/-- What a task reports that is done on a disk from which its template is read. -/
def resultOf (g : Generator) (fs : FileSystem) : Task → Report
  | .folder parent name => .ofFolder (parent / g.settings.folderName name)
  | .file folder f =>
    .ofFile (folder / g.settings.fileName f)
      (Placeholder.keys (folder / g.settings.fileName f).name ++
        if g.settings.dryRun then [] else Placeholder.keys ((g.settings.content? fs f).getD ""))

/-- **Whether a task can be done, and what comes of it, is seen from few places**: its own, and those on the way to its
    template. -/
theorem can_congr (hstart : fs'.workingFolder = fs.workingFolder)
    (hown : fs'.entryAt? (fs.placeOf (g.settings.pathOf t)) = fs.entryAt? (fs.placeOf (g.settings.pathOf t)))
    (htrail : ∀ folder f, t = .file folder f → f.templateId ≠ "" →
      ∀ l ∈ fs.trail (g.settings.templatePath f), fs'.entryAt? l = fs.entryAt? l) :
    (g.Can fs' t ↔ g.Can fs t) ∧
      (g.Can fs t → g.settings.entryOf fs' t = g.settings.entryOf fs t ∧ g.resultOf fs' t = g.resultOf fs t) := by
  have hfree := Settings.free_congr hstart hown
  cases t with
  | folder parent name =>
    refine ⟨?_, fun _ => ⟨rfl, rfl⟩⟩
    rw [Can, Can, hfree]
  | file folder f =>
    have hreads (body : String) : g.settings.Reads fs' f body ↔ g.settings.Reads fs f body :=
      Settings.reads_congr hstart (htrail folder f rfl)
    refine ⟨?_, ?_⟩
    · simp only [Can, hreads, hfree]
    · rintro ⟨⟨body, hread, -⟩, -⟩
      have hcontent : g.settings.content? fs' f = g.settings.content? fs f := by
        rw [Settings.content?, Settings.content?, hread.body, ((hreads body).mpr hread).body]
      rw [Settings.entryOf, Settings.entryOf, resultOf, resultOf, hcontent]
      exact ⟨rfl, rfl⟩

/-! ## Performing -/

theorem passes_requireFolder {parent : Path} {name : String} {u : Unit}
    (h : Job.exec (g.requireFolder parent name) s = (.ok u, s')) : (g.requireFolder parent name).Passes := by
  unfold requireFolder at h ⊢
  split at h
  · next hloose =>
    rw [if_pos hloose]
    exact Job.passes_pure
  · next hloose =>
    rw [if_neg hloose]
    exact Job.passes_requirePath h

theorem passes_requireFile {folder path : Path} {u : Unit}
    (h : Job.exec (g.requireFile folder path f body) s = (.ok u, s')) : (g.requireFile folder path f body).Passes := by
  unfold requireFile at h ⊢
  split at h
  · next hloose =>
    rw [if_pos hloose]
    exact Job.passes_pure
  · next hloose =>
    rw [if_neg hloose]
    obtain ⟨_, s₁, hpath, hcontent⟩ := Job.exec_bind_eq_ok h
    exact (Job.passes_requirePath hpath).bind (Job.passes_requireContent hcontent)

theorem reads_of_exec_template (h : Job.exec (g.template f) s = (.ok body, s')) : g.settings.Reads s.disk f body := by
  refine ⟨fun hid => ?_, (exec_template_eq_ok h).2⟩
  rw [template, if_neg hid] at h
  obtain ⟨_, s₁, hreport, htext⟩ := Job.exec_bind_eq_ok h
  obtain ⟨-, bytes, cs, hread, -, -⟩ := Job.exec_readText_eq_ok htext
  rw [disk_report hreport] at hread
  exact (FileSystem.readFile_eq_ok_iff.mp hread).1

/-- **What is performed with success could be done**, and its result is the one that was to be expected. -/
theorem can_of_exec_perform {r : Report} (hdry : g.settings.dryRun = false)
    (h : Job.exec (g.perform t) s = (.ok r, s')) : g.Can s.disk t ∧ r = g.resultOf s.disk t := by
  have hfree := (made_of_perform hdry h).free
  cases t with
  | folder parent name =>
    obtain ⟨path, s₁, hfolder, hlast⟩ := Job.exec_bind_eq_ok h
    obtain ⟨rfl, -⟩ := Job.exec_pure_eq_ok hlast
    obtain ⟨hpath, ⟨s₂, hrequire⟩, -⟩ := exec_makeFolder_eq_ok hdry hfolder
    rw [hpath]
    exact ⟨⟨passes_requireFolder hrequire, hfree⟩, rfl⟩
  | file folder f =>
    obtain ⟨body, s₁, htemplate, hrequire, -, rfl⟩ := exec_makeFile_eq_ok hdry h
    have hreads := reads_of_exec_template htemplate
    refine ⟨⟨⟨body, hreads, passes_requireFile hrequire⟩, hfree⟩, ?_⟩
    rw [resultOf, Settings.content?, hreads.body, hdry]
    rfl

/-- A template that can be read is read as its text. -/
theorem exec_readText_of_reads {fault : Refusal → Fault} (h : g.settings.Reads s.disk f body) (hid : f.templateId ≠ "") :
    Job.exec (Job.readText (g.settings.templatePath f) fault) s = (.ok body, s) := by
  have hbody := h.body
  rw [Settings.body?, if_neg hid] at hbody
  split at hbody
  · next bytes hfile =>
    split at hbody
    · next cs hdecode =>
      cases hbody
      have hread := FileSystem.readFile_eq_ok_iff.mpr ⟨h.reach hid, hfile⟩
      rw [Job.readText, Job.exec_bind, Job.exec_ask, hread]
      simp only [Except.mapError, hdecode, Job.exec_pure]
    · cases hbody
  · cases hbody

/-- A template that can be read is announced and read. -/
theorem exec_template_of_reads (h : g.settings.Reads s.disk f body) :
    ∃ s', Job.exec (g.template f) s = (.ok body, s') ∧ s'.disk = s.disk := by
  unfold template
  by_cases hid : f.templateId = ""
  · have hbody := h.body
    rw [Settings.body?, if_pos hid] at hbody
    cases hbody
    rw [if_pos hid]
    exact ⟨s, rfl, rfl⟩
  · obtain ⟨s₁, hreport, hdisk⟩ := exec_report (g := g) (s := s) (.creatingFile (g.settings.templatePath f))
    rw [if_neg hid, Job.exec_bind, hreport]
    exact ⟨s₁, exec_readText_of_reads (hdisk.symm ▸ h) hid, hdisk⟩

/-- **What can be done is performed with success**, if its place can be reached. -/
theorem exec_perform_of_can (hdry : g.settings.dryRun = false) (h : g.Can s.disk t)
    (hreach : s.disk.locate (g.settings.pathOf t) = .ok (s.disk.placeOf (g.settings.pathOf t))) :
    ∃ r s', Job.exec (g.perform t) s = (.ok r, s') := by
  cases t with
  | folder parent name =>
    obtain ⟨hpasses, hfree⟩ := h
    obtain ⟨s₁, hreport, hdisk⟩ :=
      exec_report (g := g) (s := s) (.creatingFolder (parent / g.settings.folderName name))
    rw [Settings.pathOf, ← hdisk] at hreach
    rw [Settings.Free, ← hdisk] at hfree
    obtain ⟨s₂, hmake⟩ := Job.exec_makeFolder_of_entryAt?
      (Fault.duringGeneration .createFolder · (parent / g.settings.folderName name)) hreach hfree
    refine ⟨.ofFolder (parent / g.settings.folderName name), s₂, ?_⟩
    rw [perform, makeFolder, Job.exec_bind, Job.exec_bind, hreport]
    simp only [hdry, Bool.false_eq_true, if_false, Job.exec_bind, hpasses s₁, hmake, Job.exec_pure]
  | file folder f =>
    obtain ⟨⟨body, hreads, hpasses⟩, hfree⟩ := h
    obtain ⟨s₁, htemplate, hdisk⟩ := exec_template_of_reads hreads
    rw [Settings.pathOf, ← hdisk] at hreach
    rw [Settings.Free, ← hdisk] at hfree
    have hwrite := FileSystem.writeFile_of_locate hreach hfree
    rw [perform, makeFile]
    simp only [hdry, Bool.false_eq_true, if_false, Job.exec_bind, htemplate, hpasses s₁, Job.writeText, Job.exec_change,
      hwrite, Job.exec_pure]
    exact ⟨_, _, rfl⟩

end Generator

end Stencil
