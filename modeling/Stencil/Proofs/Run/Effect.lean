import Stencil.Proofs.Run.Beside

/-!
# `Stencil.Proofs.Run.Effect` — what a successful run has done

## Contents
- **Reports.** When everything has been made, the report lists it in the order of the outline.
- **Places.** What a place holds in the end to which files are written, if the last ones agree on it.
- **Last files.** `Settings.lastFiles` are the files of an outline with a path after which no other one with that path
  has to come. With plain names, they are those that come last at the place of the path.
- **Effect.** `Settings.Effect` describes the report and the disk after a run; every successful run has just that
  effect, whoever decides what comes first (`effect_of_generateBy`). Which of several last files comes last, is not up
  to the program (`generateBy_first_file_stays`).
-/

namespace Stencil

open Text

/-! ## Reports -/

/-- When everything has been made, the report lists it in the order of the outline. -/
theorem Settings.reports_of_isMade {s : Settings} {fs : FileSystem} {w : Work} (hfits : ∀ p ∈ w.parts, s.Fits fs p)
    (hmade : w.isMade = true) : s.Reports w.tasks w.report := by
  induction w with
  | nothing => exact s.reports_nil
  | part p =>
    obtain ⟨t, stage⟩ := p
    have hpart := hfits _ (List.mem_singleton_self _)
    have hstage : stage.report?.isSome = true := by simpa [Work.isMade, Work.parts] using hmade
    cases stage with
    | made r => exact (Settings.fits_made.mp hpart).2
    | new | announced | read body | opened body l | stopped fault => cases hstage
  | seq v w ihv ihw | queue v w ihv ihw | par v w ihv ihw =>
    rw [Work.isMade, Work.parts, List.all_append, Bool.and_eq_true] at hmade
    rw [Work.tasks, Work.parts, List.map_append]
    have hv := ihv (fun p hp => hfits p (List.mem_append_left _ hp)) hmade.1
    have hw := ihw (fun p hp => hfits p (List.mem_append_right _ hp)) hmade.2
    exact hv.extend hw

/-- Every task of work that has been made has a report. -/
theorem Work.exists_made {w : Work} {t : Task} (hmade : w.isMade = true) (ht : t ∈ w.tasks) :
    ∃ r, ⟨t, .made r⟩ ∈ w.parts := by
  obtain ⟨⟨t, stage⟩, hp, rfl⟩ := List.mem_map.mp ht
  have hstage : stage.report?.isSome = true := List.all_eq_true.mp hmade _ hp
  cases stage with
  | made r => exact ⟨r, hp⟩
  | new | announced | read body | opened body l | stopped fault => cases hstage

namespace Generator

variable {g : Generator} {w w' : Work} {s s' : RunState}

/-- When everything has been made, everything stands. -/
theorem Steps.stands (hdry : g.settings.dryRun = false) (hnew : w.isNew = true) (h : g.Steps w s w' s')
    (hmade : w'.isMade = true) : ∀ t ∈ w.tasks, g.settings.Stands s'.disk t := by
  intro t ht
  obtain ⟨r, hr⟩ := Work.exists_made hmade (h.tasks ▸ ht)
  exact (Settings.fits_made.mp ((h.grown hdry hnew).fits _ hr)).1

/-- What has been made was allowed, and still is. -/
theorem Steps.allows (hdry : g.settings.dryRun = false) (hnew : w.isNew = true)
    (hkeeps : g.settings.KeepsTemplates s.disk w.tasks) (h : g.Steps w s w' s') (hmade : w'.isMade = true) :
    ∀ t ∈ w.tasks, g.Allows s'.disk t := by
  intro t ht
  obtain ⟨r, hr⟩ := Work.exists_made hmade (h.tasks ▸ ht)
  exact (knows_made.mp (h.knows hdry hnew hkeeps _ hr)).1

end Generator

/-! ## Places -/

namespace Generator

variable {g : Generator} {fs fs' : FileSystem} {w : Work} {l : Location} {bytes : Bytes}

/-- When no file is open, none has stopped that is written at a place, and the last ones have been made, then the place
    holds that on which they agree. -/
theorem Settles.entryAt? (h : g.Settles fs l bytes w fs') (hopen : w.isOpen = false)
    (hnone : ∀ p ∈ w.parts, g.settings.writesAt fs l p.task = true → p.stage.fault? = none)
    (hlast : ∀ p ∈ w.last (g.settings.writesAt fs l), p.stage.report?.isSome = true) :
    fs'.entryAt? l = some (.file bytes) := by
  cases h with
  | stopped hp hwrites hstopped =>
    rw [hnone _ hp hwrites] at hstopped
    cases hstopped
  | waits hp hahead =>
    rw [Stage.ahead_eq_zero_iff.mpr (.inl (hlast _ hp))] at hahead
    exact absurd hahead (by decide)
  | empty hempty hp hwrites hisOpen =>
    rw [Work.isOpen, List.any_eq_false] at hopen
    exact absurd hisOpen (hopen _ hp)
  | settled hfile => exact hfile

/-- Files that get one content agree on it. -/
theorem lastAgree_of_lastFiles {content : String}
    (h : ∀ f ∈ w.lastFiles (g.settings.writesAt fs l), g.settings.content? fs f = some content) :
    g.LastAgree fs l (Utf8.encode content.toList) w := by
  intro f hf content' hcontent
  rw [h f hf] at hcontent
  rw [Option.some.inj hcontent]

theorem Settles.entryAt?_of_isMade (h : g.Settles fs l bytes w fs') (hmade : w.isMade = true) :
    fs'.entryAt? l = some (.file bytes) := by
  have hall := List.all_eq_true.mp hmade
  refine h.entryAt? (Work.isOpen_of_isMade hmade) (fun p hp _ => Stage.fault?_of_report? (hall p hp)) fun p hp => ?_
  exact hall p (Work.mem_last hp).1

end Generator

/-! ## Last files -/

namespace Settings

variable {s : Settings} {o : Outline} {fs : FileSystem} {p : Path} {f : File}

/-- Whether a task writes a file with a path. -/
def writesTo (s : Settings) (p : Path) : Task → Bool
  | .folder _ _ => false
  | .file folder f => folder / s.fileName f = p

/-- The files of an outline with a path after which no other one with that path has to come. -/
def lastFiles (s : Settings) (o : Outline) (p : Path) : List File := (s.work o).lastFiles (s.writesTo p)

theorem mem_filesOf_of_mem_tasks {folder : Path} (h : .file folder f ∈ (s.work o).tasks) :
    (folder / s.fileName f, f) ∈ s.filesOf o := by
  rw [tasks_work] at h
  rw [← filterMap_fileOf?_plan]
  exact List.mem_filterMap.mpr ⟨_, h, rfl⟩

theorem exists_mem_tasks_of_mem_filesOf (h : (p, f) ∈ s.filesOf o) :
    ∃ folder, .file folder f ∈ (s.work o).tasks ∧ folder / s.fileName f = p := by
  rw [← filterMap_fileOf?_plan, ← tasks_work] at h
  obtain ⟨t, ht, hfile⟩ := List.mem_filterMap.mp h
  cases t with
  | folder parent name => cases hfile
  | file folder f' =>
    obtain ⟨rfl, rfl⟩ : folder / s.fileName f' = p ∧ f' = f := by simpa [fileOf?] using hfile
    exact ⟨folder, ht, rfl⟩

/-- They are files with that path. -/
theorem mem_filesOf_of_mem_lastFiles (h : f ∈ s.lastFiles o p) : (p, f) ∈ s.filesOf o := by
  obtain ⟨folder, ht, hwrites⟩ := Work.exists_mem_tasks_of_mem_lastFiles h
  have hpath : folder / s.fileName f = p := by simpa [writesTo] using hwrites
  rw [← hpath]
  exact mem_filesOf_of_mem_tasks ht

/-- If there is a file with that path, one of them is a last one. -/
theorem lastFiles_ne_nil (h : (p, f) ∈ s.filesOf o) : s.lastFiles o p ≠ [] := by
  obtain ⟨folder, ht, hpath⟩ := exists_mem_tasks_of_mem_filesOf h
  obtain ⟨part, hpart, htask⟩ := List.mem_map.mp ht
  have hwrites : s.writesTo p part.task = true := by simp [htask, writesTo, hpath]
  obtain ⟨⟨u, stage⟩, hlast⟩ := List.exists_mem_of_ne_nil _ (Work.last_ne_nil hpart hwrites)
  cases u with
  | folder parent name => cases (Work.mem_last hlast).2
  | file folder' f' => exact List.ne_nil_of_mem (Work.mem_lastFiles_iff.mpr ⟨folder', List.mem_map_of_mem hlast⟩)

/-- **With plain names, the files that come last at a place are the last files with its path.** -/
theorem HasPlainNames.last_eq (h : s.HasPlainNames o) (hf : (p, f) ∈ s.filesOf o) :
    (s.work o).last (s.writesAt fs (fs.placeOf p)) = (s.work o).last (s.writesTo p) := by
  refine Work.last_congr fun t ht => ?_
  cases t with
  | folder parent name => rfl
  | file folder f' =>
    rw [writesAt, writesTo, decide_eq_decide]
    refine ⟨fun hplace => ?_, fun hpath => by rw [hpath]⟩
    have hf' := mem_filesOf_of_mem_tasks ht
    exact @HasPlainNames.placeOf_inj s o fs h (folder / s.fileName f', f') (p, f) hf' hf hplace

/-! ## Effect -/

/-- What a run has done with a disk, and what it reports: the folders and files of the outline in the order of the walk,
    all of them there; every file with the content that all the last ones with its path get from the templates of the
    disk before, if they get the same; and nothing elsewhere. -/
structure Effect (s : Settings) (o : Outline) (fs fs' : FileSystem) (r : Report) : Prop where
  folders : r.folders = o.walk.map fun p => s.folderPath p.1
  files : r.files = o.walk.flatMap s.filesAt
  folderCount : r.folders.length = o.folderCount
  fileCount : r.files.length = o.fileCount
  holdsFolder : ∀ p ∈ r.folders, fs'.holdsFolder p = .ok true
  holdsFile : ∀ p ∈ r.files, ∃ bytes, fs'.readFile p = .ok bytes
  content : ∀ e ∈ s.filesOf o, ∃ content, s.content? fs e.2 = some content
  lastFiles : ∀ p ∈ r.files, s.lastFiles o p ≠ [] ∧ ∀ f ∈ s.lastFiles o p, (p, f) ∈ s.filesOf o
  readFile : ∀ p ∈ r.files, ∀ content, (∀ f ∈ s.lastFiles o p, s.content? fs f = some content) →
    fs'.readFile p = .ok (Utf8.encode content.toList)
  frame : ∀ l, (∀ p ∈ r.folders ++ r.files, fs.placeOf p ≠ l) → fs'.entryAt? l = fs.entryAt? l
  workingFolder : fs'.workingFolder = fs.workingFolder

end Settings

namespace Generator

variable {g : Generator} {σ : Scheduler} {o : Outline} {st st' : RunState} {r : Report}

/-- A file holds that on which the last files with its path agree. -/
theorem readFile_of_lastFiles {w : Work} {p : Path} {f : File} {content : String} (hdry : g.settings.dryRun = false)
    (hplain : g.settings.HasPlainNames o) (hspare : g.settings.SparesTemplates o st.disk)
    (hsteps : g.Steps (g.settings.work o) st w st') (hmade : w.isMade = true) (hf : (p, f) ∈ g.settings.filesOf o)
    (hread : ∃ bytes, st'.disk.readFile p = .ok bytes)
    (hcontent : ∀ f ∈ g.settings.lastFiles o p, g.settings.content? st.disk f = some content) :
    st'.disk.readFile p = .ok (Utf8.encode content.toList) := by
  have hnew := g.settings.isNew_work o
  have hkeeps := hspare.keepsTemplates_work
  have hwrites : ∃ t ∈ (g.settings.work o).tasks, g.settings.writesAt st.disk (st.disk.placeOf p) t = true := by
    obtain ⟨folder, ht, hpath⟩ := Settings.exists_mem_tasks_of_mem_filesOf hf
    exact ⟨_, ht, by simp [Settings.writesAt, hpath]⟩
  have hagree : g.LastAgree st.disk (st.disk.placeOf p) (Utf8.encode content.toList) (g.settings.work o) := by
    refine lastAgree_of_lastFiles fun f' hf' => ?_
    rw [Work.lastFiles, hplain.last_eq hf] at hf'
    exact hcontent f' hf'
  -- the place holds what they agree on, and its path leads there, since the file can be read
  have hfile := (hsteps.settles hdry hnew hkeeps hwrites hagree).entryAt?_of_isMade hmade
  obtain ⟨bytes, hread⟩ := hread
  have hreach := (FileSystem.readFile_eq_ok_iff.mp hread).1
  refine FileSystem.readFile_eq_ok_iff.mpr ⟨hreach, ?_⟩
  rw [(hsteps.grown hdry hnew).grows.placeOf]
  exact hfile

/-- **What a successful run has done**, in whatever order. -/
theorem effect_of_generateBy (hdry : g.settings.dryRun = false) (hplain : g.settings.HasPlainNames o)
    (hspare : g.settings.SparesTemplates o st.disk) (h : Job.exec (g.generateBy σ o) st = (.ok r, st')) :
    g.settings.Effect o st.disk st'.disk r := by
  obtain ⟨w, hsteps, hmade, rfl⟩ := exec_generateBy_eq_ok h
  have hnew := g.settings.isNew_work o
  have hgrown := hsteps.grown hdry hnew
  have htasks : w.tasks = g.settings.plan o := hsteps.tasks.trans (g.settings.tasks_work o)
  have hkeeps := hspare.keepsTemplates_work
  have hreports := Settings.reports_of_isMade hgrown.fits hmade
  rw [htasks] at hreports
  have hfolders := hreports.folders
  have hfiles := hreports.files
  rw [Settings.filterMap_folderOf?_plan] at hfolders
  rw [Settings.filterMap_fileOf?_plan] at hfiles
  have hstands := hsteps.stands hdry hnew hmade
  have hholdsFile : ∀ e ∈ g.settings.filesOf o, ∃ bytes, st'.disk.readFile e.1 = .ok bytes := by
    rintro ⟨p, f⟩ he
    obtain ⟨folder, ht, rfl⟩ := Settings.exists_mem_tasks_of_mem_filesOf he
    exact hstands _ ht
  constructor
  case folders => exact hfolders
  case files => rw [hfiles, Settings.map_fst_filesOf]
  case folderCount =>
    rw [hfolders, List.length_map]
    rfl
  case fileCount => rw [hfiles, List.length_map, Settings.length_filesOf]
  case holdsFolder =>
    intro p hp
    rw [hfolders, ← Settings.filterMap_folderOf?_plan] at hp
    obtain ⟨t, ht, hfolder⟩ := List.mem_filterMap.mp hp
    cases t with
    | folder parent name =>
      obtain rfl := Option.some.inj hfolder
      exact hstands _ (by rwa [Settings.tasks_work])
    | file folder f => cases hfolder
  case holdsFile =>
    intro p hp
    rw [hfiles] at hp
    obtain ⟨e, he, rfl⟩ := List.mem_map.mp hp
    exact hholdsFile e he
  case content =>
    rintro ⟨p, f⟩ he
    obtain ⟨folder, ht, -⟩ := Settings.exists_mem_tasks_of_mem_filesOf he
    -- its template can be read at the end, and is the same as at the start
    obtain ⟨-, body, hreads, -⟩ := hsteps.allows hdry hnew hkeeps hmade _ ht
    have hsame := hsteps.sameTemplates hdry hnew hkeeps
    exact ⟨_, (hsame.content? ht).symm.trans hreads.content?⟩
  case lastFiles =>
    intro p hp
    rw [hfiles] at hp
    obtain ⟨⟨p, f⟩, he, rfl⟩ := List.mem_map.mp hp
    exact ⟨Settings.lastFiles_ne_nil he, fun f hf => Settings.mem_filesOf_of_mem_lastFiles hf⟩
  case readFile =>
    intro p hp content hcontent
    rw [hfiles] at hp
    obtain ⟨⟨p, f⟩, he, rfl⟩ := List.mem_map.mp hp
    exact readFile_of_lastFiles hdry hplain hspare hsteps hmade he (hholdsFile _ he) hcontent
  case frame =>
    intro l hl
    refine hgrown.frame l fun p hp _ => hl _ (hreports.pathOf_mem ?_)
    exact htasks ▸ List.mem_map_of_mem hp
  case workingFolder => exact hgrown.grows.workingFolder

/-- One folder with two files, one of them made from a template that is completed; the other one is ready first. -/
theorem effect_of_generateBy_two_files :
    let s : Settings := { templatesDir := .ofString "t" }
    let x : File := { templateId := "T", name := "x", parameters := some (.ofList [("K", "v")]) }
    let o : Outline := { folders := [.mk "a" [x, { name := "y" }] []] }
    let fs : FileSystem := { entries := [(["t"], .folder), (["t", "T"], .file (Utf8.encode "___K___".toList))] }
    ∃ r st', Job.exec (generateBy { settings := s } .inStep o) { disk := fs } = (.ok r, st') ∧
      s.Effect o fs st'.disk r := by
  intro s x o fs
  have hplain : s.HasPlainNames o := by decide +kernel +revert
  have hspare : s.SparesTemplates o fs := by decide +kernel +revert
  have hok : (Job.exec (generateBy { settings := s } .inStep o) { disk := fs }).1.toOption.isSome = true := by
    decide +kernel +revert
  obtain ⟨r, st', hrun⟩ := Job.exec_eq_ok_of_isSome hok
  exact ⟨r, st', hrun, @effect_of_generateBy { settings := s } .inStep o { disk := fs } st' r rfl hplain hspare hrun⟩

/-- **The last file of the report need not come last.** Of two files with one path, the second one has no template to
    read and is ready first: then the first one stays. -/
theorem generateBy_first_file_stays :
    let s : Settings := { templatesDir := .ofString "t" }
    let x : File := { templateId := "T", name := "x" }
    let y : File := { name := "x" }
    let o : Outline := { folders := [.mk "a" [x, y] []] }
    let fs : FileSystem := { entries := [(["t"], .folder), (["t", "T"], .file (Utf8.encode "text".toList))] }
    s.HasPlainNames o ∧ s.SparesTemplates o fs ∧ (s.filesOf o).getLast? = some (.ofString "a/x", y) ∧
      s.content? fs y = some "" ∧
      ∃ r st', Job.exec (generateBy { settings := s } .inStep o) { disk := fs } = (.ok r, st') ∧
        r.files.getLast? = some (.ofString "a/x") ∧
        st'.disk.readFile (.ofString "a/x") = .ok (Utf8.encode "text".toList) := by
  intro s x y o fs
  have hplain : s.HasPlainNames o := by decide +kernel +revert
  have hspare : s.SparesTemplates o fs := by decide +kernel +revert
  have hlast : (s.filesOf o).getLast? = some (.ofString "a/x", y) := by decide +kernel +revert
  have hcontent : s.content? fs y = some "" := by decide +kernel +revert
  have hok : (Job.exec (generateBy { settings := s } .inStep o) { disk := fs }).1.toOption.map
      (fun r => r.files.getLast?) = some (some (.ofString "a/x")) := by decide +kernel +revert
  have hdisk : (Job.exec (generateBy { settings := s } .inStep o) { disk := fs }).2.disk.readFile (.ofString "a/x") =
      .ok (Utf8.encode "text".toList) := by decide +kernel +revert
  refine ⟨hplain, hspare, hlast, hcontent, ?_⟩
  cases hrun : Job.exec (generateBy { settings := s } .inStep o) { disk := fs } with
  | mk result st' =>
    rw [hrun] at hok hdisk
    cases result with
    | ok r => exact ⟨r, st', rfl, Option.some.inj hok, hdisk⟩
    | error f => cases hok

end Generator

end Stencil
