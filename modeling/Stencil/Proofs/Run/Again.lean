import Stencil.Proofs.Run.Effect

/-!
# `Stencil.Proofs.Run.Again` — running a second time

## Contents
- **Nothing in the way.** Where every task is allowed and what it makes stands already, none of them stops, if folders
  that exist are used (`Steps.faults_eq_nil`).
- **The same report.** Work of which everything has been made is decided by its tasks and the templates
  (`Steps.eq_withStages`).
- **The same disk.** A place is as it was before, unless the files that come last there do not agree
  (`Settings.AgreesAt`).
- **In the way.** If folders that exist must not be used, the first root folder stops, and nothing else has begun
  (`Steps.blocked`).
- **Twice.** Both runs may be made in whatever order (`generateBy_again`). Of two files that do not agree, the second run
  may leave the other one (`generateBy_again_other_file`).
-/

namespace Stencil

open Text

/-! ## Nothing in the way -/

namespace Generator

variable {g : Generator} {s s' : RunState} {w w' : Work} {t : Task} {stage : Stage t}

/-- A task that is allowed and whose work stands already goes on. -/
theorem exec_act_of_stands (hdry : g.settings.dryRun = false) (hreuse : g.settings.allowExisting = true)
    (hahead : stage.ahead ≠ 0) (hallows : g.Allows s.disk t) (hstands : g.settings.Stands s.disk t)
    (hfits : g.settings.Fits s.disk ⟨t, stage⟩) (hknows : g.Knows s.disk ⟨t, stage⟩) :
    ∃ stage' s', Job.exec (g.act t stage) s = (.ok stage', s') := by
  cases t with
  | folder parent name =>
    cases stage with
    | new =>
      obtain ⟨s₁, hreport, -⟩ :=
        exec_report (g := g) (s := s) (.creatingFolder (parent / g.settings.folderName name))
      refine ⟨.announced, s₁, ?_⟩
      simp only [act, actOnFolder, Job.exec_bind, hreport, hdry, Bool.false_eq_true, if_false, Job.exec_pure]
    | announced =>
      have hpasses : (g.requireFolder parent name).Passes := hallows
      obtain ⟨hreach, hfolder⟩ := FileSystem.holdsFolder_eq_ok_true_iff.mp hstands
      obtain ⟨s₁, hmake⟩ := Job.exec_makeFolder_of_entryAt?
        (Fault.duringGeneration .createFolder · (parent / g.settings.folderName name)) hreach (.inr ⟨hreuse, hfolder⟩)
      refine ⟨.made (.ofFolder (parent / g.settings.folderName name)), s₁, ?_⟩
      simp only [act, actOnFolder, Job.exec_bind, hpasses s, hmake, Job.exec_pure]
    | made r | stopped f => exact absurd rfl hahead
  | file folder f =>
    obtain ⟨hname, body', hreads', htext⟩ := hallows
    cases stage with
    | new =>
      by_cases hid : f.templateId = ""
      · refine ⟨.read "", s, ?_⟩
        simp only [act, actOnFile, hdry, hid, Bool.false_eq_true, if_false, if_true, Job.exec_pure]
      · obtain ⟨s₁, hreport, -⟩ := exec_report (g := g) (s := s) (.creatingFile (g.settings.templatePath f))
        refine ⟨.announced, s₁, ?_⟩
        simp only [act, actOnFile, hdry, hid, Bool.false_eq_true, if_false, Job.exec_bind, hreport, Job.exec_pure]
    | announced =>
      refine ⟨.read body', s, ?_⟩
      simp only [act, actOnFile, Job.exec_bind, exec_readText_of_reads hreads' hfits, Job.exec_pure]
    | read body =>
      obtain ⟨bytes, hread⟩ : ∃ bytes, s.disk.readFile (folder / g.settings.fileName f) = .ok bytes := hstands
      obtain ⟨hreach, hfile⟩ := FileSystem.readFile_eq_ok_iff.mp hread
      have hopen := FileSystem.openFile_of_locate hreach (by simp [hfile])
      simp only [act, actOnFile, Job.exec_bind, hname s, Job.exec_openFile, hopen, Job.exec_pure]
      exact ⟨_, _, rfl⟩
    | opened body l =>
      have hsame : body' = body := Option.some.inj (hreads'.body.symm.trans hknows.1.body)
      rw [hsame] at htext
      simp only [act, actOnFile, Job.exec_bind, htext s, Job.exec_overwrite, Job.exec_pure]
      exact ⟨_, _, rfl⟩
    | made r | stopped f => exact absurd rfl hahead

/-- **Where everything is allowed and stands already, nothing stops.** -/
theorem Steps.faults_eq_nil (hdry : g.settings.dryRun = false) (hreuse : g.settings.allowExisting = true)
    (hnew : w.isNew = true) (hkeeps : g.settings.KeepsTemplates s.disk w.tasks)
    (hall : ∀ t ∈ w.tasks, g.Allows s.disk t ∧ g.settings.Stands s.disk t) (h : g.Steps w s w' s') : w'.faults = [] := by
  refine h.keeps_after (p := fun w₁ _ => w₁.faults = []) (Work.faults_of_isNew hnew) ?_
  intro w₁ s₁ w₂ s₂ hsteps hnone hstep
  have hgrown := hsteps.grown hdry hnew
  have hsame := hsteps.sameTemplates hdry hnew hkeeps
  cases hstep with
  | @mk t stage stage' _ _ _ _ hahead hturn hact =>
    have ht : t ∈ w.tasks := hsteps.tasks ▸ hturn.mem_tasks
    obtain ⟨hallows, hstands⟩ := hall t ht
    obtain ⟨next, s₃, hnext⟩ := exec_act_of_stands hdry hreuse hahead
      (hallows.grows hgrown.grows (hsame.of_mem ht)) (hstands.grows hgrown.grows) (hgrown.fits _ hturn.mem)
      (hsteps.knows hdry hnew hkeeps _ hturn.mem)
    -- the act has a next stage, so the part has come to that one
    have hstage : next = stage' := by
      rw [exec_actOn, Prod.mk.injEq, outcomeOf, hnext] at hact
      simpa using hact.1
    have hfault := (act_yields hahead _ _ _ hnext).2
    rw [hstage] at hfault
    rw [Work.faults, List.filterMap_eq_nil_iff] at hnone ⊢
    intro p hp
    rcases hturn.of_mem hp with rfl | hold
    · exact hfault
    · exact hnone p hold

/-! ## The same report -/

/-- **Work of which everything has been made** is decided by its tasks and the templates. -/
theorem Steps.eq_withStages (hdry : g.settings.dryRun = false) (hnew : w.isNew = true)
    (hkeeps : g.settings.KeepsTemplates s.disk w.tasks) (h : g.Steps w s w' s') (hmade : w'.isMade = true) :
    w' = w.withStages fun t => .made (g.resultOf s.disk t) := by
  have hsame := h.sameTemplates hdry hnew hkeeps
  rw [← h.withStages]
  refine Work.eq_withStages fun p hp => ?_
  obtain ⟨t, stage⟩ := p
  have ht : t ∈ w.tasks := h.tasks ▸ List.mem_map_of_mem hp
  have hstage : stage.report?.isSome = true := List.all_eq_true.mp hmade _ hp
  cases stage with
  | made r =>
    obtain ⟨-, rfl⟩ := knows_made.mp (h.knows hdry hnew hkeeps _ hp)
    rw [resultOf_congr hsame ht]
  | new | announced | read body | opened body l | stopped fault => cases hstage

end Generator

/-! ## The same disk -/

namespace Settings

variable {s : Settings} {o : Outline} {fs fs' : FileSystem} {l : Location} {t : Task}

/-- Whether the files of an outline that come last at a place get the same content. -/
def AgreesAt (s : Settings) (o : Outline) (fs : FileSystem) (l : Location) : Prop :=
  ∀ f ∈ (s.work o).lastFiles (s.writesAt fs l), ∀ f' ∈ (s.work o).lastFiles (s.writesAt fs l),
    s.content? fs f = s.content? fs f'

instance : Decidable (s.AgreesAt o fs l) :=
  inferInstanceAs (Decidable (∀ f ∈ (s.work o).lastFiles (s.writesAt fs l), _))

theorem writesAt_grows (h : FileSystem.Grows fs fs') : s.writesAt fs' l = s.writesAt fs l := by
  funext t
  cases t with
  | folder parent name => rfl
  | file folder f => rw [writesAt, writesAt, h.placeOf]

/-- A place at which a file comes last is that of a file. -/
theorem exists_mem_filesOf {f : File} (h : f ∈ (s.work o).lastFiles (s.writesAt fs l)) :
    ∃ e ∈ s.filesOf o, fs.placeOf e.1 = l := by
  obtain ⟨folder, ht, hwrites⟩ := Work.exists_mem_tasks_of_mem_lastFiles h
  exact ⟨_, mem_filesOf_of_mem_tasks ht, by simpa [writesAt] using hwrites⟩

/-- Files that agree have something on which they agree. -/
theorem AgreesAt.exists_bytes {g : Generator} (h : g.settings.AgreesAt o fs l) :
    ∃ bytes, g.LastAgree fs l bytes (g.settings.work o) := by
  cases hfiles : (g.settings.work o).lastFiles (g.settings.writesAt fs l) with
  | nil =>
    refine ⟨[], fun f hf => ?_⟩
    rw [hfiles] at hf
    cases hf
  | cons first rest =>
    refine ⟨Utf8.encode ((g.settings.content? fs first).getD "").toList, fun f hf content hcontent => ?_⟩
    have hfirst : first ∈ (g.settings.work o).lastFiles (g.settings.writesAt fs l) := by
      rw [hfiles]
      exact List.mem_cons_self
    rw [h first hfirst f hf, hcontent, Option.getD_some]

theorem Stands.exists_entryAt? (h : s.Stands fs t) : ∃ e, fs.entryAt? (fs.placeOf (s.pathOf t)) = some e := by
  cases t with
  | folder parent name => exact ⟨_, (FileSystem.holdsFolder_eq_ok_true_iff.mp h).2⟩
  | file folder f =>
    obtain ⟨bytes, hread⟩ := h
    exact ⟨_, (FileSystem.readFile_eq_ok_iff.mp hread).2⟩

end Settings

namespace Generator

variable {g : Generator} {s s' s₁ : RunState} {w w' w₁ : Work} {o : Outline} {fs fs' : FileSystem} {l : Location}

/-- Where everything stands already, a place at which no file is written stays as it is. -/
theorem Grown.entryAt?_of_stands (h : g.Grown fs w fs') (hstands : ∀ t ∈ w.tasks, g.settings.Stands fs t)
    (hnone : ∀ t ∈ w.tasks, g.settings.writesAt fs l t = false) : fs'.entryAt? l = fs.entryAt? l := by
  have hfile := h.file_iff l fun t ht e he => by
    have hnot := hnone t ht
    cases t with
    | folder parent name => cases he
    | file folder f =>
      obtain rfl := Option.some.inj he
      simpa [Settings.writesAt] using hnot
  cases hentry : fs.entryAt? l with
  | none =>
    -- nothing stands there, so nothing is to be made there
    rw [← hentry]
    refine h.frame l fun p hp _ hplace => ?_
    obtain ⟨e, he⟩ := (hstands p.task (List.mem_map_of_mem hp)).exists_entryAt?
    rw [hplace, hentry] at he
    cases he
  | some e =>
    cases e with
    | folder => exact h.grows.folder l hentry
    | file bytes => exact (hfile bytes).mpr hentry

/-- **A place is as the first run left it**, when all has been made again, if the files agree that come last there. -/
theorem entryAt?_again (hdry : g.settings.dryRun = false)
    (hkeeps : g.settings.KeepsTemplates s.disk (g.settings.work o).tasks) (h : g.Steps (g.settings.work o) s w s')
    (hmade : w.isMade = true) (hstart : s₁.disk = s'.disk) {s₂ : RunState}
    (h' : g.Steps (g.settings.work o) s₁ w' s₂) (hmade' : w'.isMade = true) (hagree : g.settings.AgreesAt o s.disk l) :
    s₂.disk.entryAt? l = s'.disk.entryAt? l := by
  have hnew := g.settings.isNew_work o
  have hgrown := h.grown hdry hnew
  have hsame := h.sameTemplates hdry hnew hkeeps
  have hgrown' := h'.grown hdry hnew
  rw [hstart] at hgrown'
  by_cases hwrites : ∃ t ∈ (g.settings.work o).tasks, g.settings.writesAt s.disk l t = true
  · obtain ⟨bytes, hbytes⟩ := hagree.exists_bytes
    have hfirst := (h.settles hdry hnew hkeeps hwrites hbytes).entryAt?_of_isMade hmade
    -- on the disk that the first run has left, the same files come last, with the same contents
    have hbytes' : g.LastAgree s₁.disk l bytes (g.settings.work o) := by
      intro f hf content hcontent
      rw [hstart, Settings.writesAt_grows hgrown.grows] at hf
      obtain ⟨folder, ht, -⟩ := Work.exists_mem_tasks_of_mem_lastFiles hf
      rw [hstart, hsame.content? ht] at hcontent
      exact hbytes f hf content hcontent
    have hwrites' : ∃ t ∈ (g.settings.work o).tasks, g.settings.writesAt s₁.disk l t = true := by
      rw [hstart, Settings.writesAt_grows hgrown.grows]
      exact hwrites
    have hkeeps' : g.settings.KeepsTemplates s₁.disk (g.settings.work o).tasks := hstart ▸ hkeeps.grows hgrown.grows
    have hsecond := (h'.settles hdry hnew hkeeps' hwrites' hbytes').entryAt?_of_isMade hmade'
    rw [hsecond, hfirst]
  · refine Grown.entryAt?_of_stands (w := w') hgrown' (fun t ht => ?_) fun t ht => ?_
    · exact h.stands hdry hnew hmade t (h'.tasks ▸ ht)
    · rw [h'.tasks] at ht
      rw [Settings.writesAt_grows hgrown.grows, ← Bool.not_eq_true]
      exact fun hw => hwrites ⟨t, ht, hw⟩

/-! ## In the way -/

/-- A folder that has been made has a name that makes a path. -/
theorem Steps.passes_requireFolder (hdry : g.settings.dryRun = false) (hnew : w.isNew = true)
    (h : g.Steps w s w' s') {parent : Path} {name : String} {r : Report}
    (hmade : ⟨.folder parent name, .made r⟩ ∈ w'.parts) : (g.requireFolder parent name).Passes := by
  refine h.keeps_after (p := fun w₁ _ => ∀ r, ⟨.folder parent name, .made r⟩ ∈ w₁.parts →
    (g.requireFolder parent name).Passes) (fun r hr => ?_) ?_ r hmade
  · cases List.all_eq_true.mp hnew _ hr
  · intro w₁ s₁ w₂ s₂ hsteps hpasses hstep r hr
    obtain ⟨t, stage, stage', hahead, hturn, hfits, hacts⟩ := hstep.acts hdry (hsteps.grown hdry hnew).fits
    rcases hturn.of_mem hr with hpart | hold
    · cases hpart
      cases hacts with
      | folder hname hstep => exact hname
    · exact hpasses r hold

theorem exec_act_announces (parent : Path) (name : String) (hdry : g.settings.dryRun = false) :
    ∃ s', Job.exec (g.act (.folder parent name) .new) s = (.ok .announced, s') ∧ s'.disk = s.disk := by
  obtain ⟨s₁, hreport, hdisk⟩ :=
    exec_report (g := g) (s := s) (.creatingFolder (parent / g.settings.folderName name))
  refine ⟨s₁, ?_, hdisk⟩
  simp only [act, actOnFolder, Job.exec_bind, hreport, hdry, Bool.false_eq_true, if_false, Job.exec_pure]

variable {parent : Path} {name : String}

/-- A folder that stands cannot be made if folders that exist must not be used. -/
theorem exec_act_alreadyExists (hreuse : g.settings.allowExisting = false)
    (hpasses : (g.requireFolder parent name).Passes) (hstands : g.settings.Stands s.disk (.folder parent name)) :
    Job.exec (g.act (.folder parent name) .announced) s =
      (.error (.generation .createFolder (parent / g.settings.folderName name) .alreadyExists), s) := by
  obtain ⟨hreach, hfolder⟩ := FileSystem.holdsFolder_eq_ok_true_iff.mp hstands
  have hmake : s.disk.makeFolder (parent / g.settings.folderName name) = .error (.cause .alreadyExists) := by
    rw [FileSystem.makeFolder, hreach]
    simp only [hfolder]
  have hget : Job.exec (get : Job RunState) s = (.ok s, s) := rfl
  simp only [act, actOnFolder, Job.exec_bind, hpasses s, Job.makeFolder, hget, hmake, hreuse, Bool.false_eq_true,
    if_false, Job.exec_throw]
  rfl

/-- **Work whose first folder cannot be made gets no further.** -/
theorem Steps.blocked {v : Work} (hdry : g.settings.dryRun = false) (hreuse : g.settings.allowExisting = false)
    (hpasses : (g.requireFolder parent name).Passes) (hstands : g.settings.Stands s.disk (.folder parent name))
    (h : g.Steps (.seq (.seq (.part ⟨.folder parent name, .new⟩) v) w) s w' s') :
    s'.disk = s.disk ∧ ∃ stage, w' = .seq (.seq (.part ⟨.folder parent name, stage⟩) v) w ∧
      (stage = .new ∨ stage = .announced ∨
        stage = .stopped (.generation .createFolder (parent / g.settings.folderName name) .alreadyExists)) := by
  refine h.keeps (p := fun w₁ s₁ => s₁.disk = s.disk ∧ ∃ stage,
    w₁ = .seq (.seq (.part ⟨.folder parent name, stage⟩) v) w ∧ (stage = .new ∨ stage = .announced ∨
      stage = .stopped (.generation .createFolder (parent / g.settings.folderName name) .alreadyExists)))
    ⟨rfl, .new, rfl, .inl rfl⟩ ?_
  rintro _ s₁ w₂ s₂ ⟨hdisk, stage, rfl, hstage⟩ hstep
  -- the folder is not made at any of these stages, so nothing but the folder can take a turn
  have hwaits : stage.report? = none := by rcases hstage with rfl | rfl | rfl <;> rfl
  cases hstep with
  | mk hahead hturn hact =>
    cases hturn with
    | second hmade h => simp [Work.isMade, Work.parts, hwaits] at hmade
    | first h =>
      cases h with
      | second hmade h => simp [Work.isMade, Work.parts, hwaits] at hmade
      | first h =>
        cases h with
        | part =>
          rw [exec_actOn, Prod.mk.injEq, outcomeOf, Except.ok.injEq, Part.mk.injEq, heq_eq_eq] at hact
          obtain ⟨⟨-, hnext⟩, hstate⟩ := hact
          rcases hstage with rfl | rfl | rfl
          · obtain ⟨s₃, hact, hsame⟩ := exec_act_announces (g := g) (s := s₁) parent name hdry
            rw [hact] at hnext hstate
            exact ⟨by rw [← hstate, hsame, hdisk], _, rfl, .inr (.inl hnext.symm)⟩
          · have hact := exec_act_alreadyExists hreuse hpasses (hdisk ▸ hstands)
            rw [hact] at hnext hstate
            exact ⟨by rw [← hstate, hdisk], _, rfl, .inr (.inr hnext.symm)⟩
          · exact absurd rfl hahead

/-- The work of an outline starts with its first root folder. -/
theorem Settings.exists_work_eq {s : Settings} {f : Folder} {fs : List Folder} (ho : o.folders = f :: fs) :
    ∃ v w, s.work o = .seq (.seq (.part ⟨.folder s.outputRoot f.name, .new⟩) v) w ∧ v.isNew = true ∧
      w.isNew = true := by
  have hnew := s.isNew_work o
  cases f with
  | mk name files folders =>
    rw [Settings.work, ho, List.foldr_cons, Settings.workOfFolder] at hnew ⊢
    simp only [Work.isNew, Work.parts, List.all_append, Bool.and_eq_true] at hnew
    exact ⟨_, _, rfl, by simpa [Work.isNew, Work.parts] using hnew.1.2, hnew.2⟩

/-- A run whose first folder cannot be made stops there. -/
theorem exec_generateBy_of_blocked {f : Folder} {folders : List Folder} (ho : o.folders = f :: folders)
    (hdry : g.settings.dryRun = false) (hreuse : g.settings.allowExisting = false)
    (hpasses : (g.requireFolder g.settings.outputRoot f.name).Passes)
    (hstands : g.settings.Stands s.disk (.folder g.settings.outputRoot f.name)) (σ : Scheduler) :
    ∃ s', Job.exec (g.generateBy σ o) s =
        (.error (.generation .createFolder (g.settings.outputRoot / g.settings.folderName f.name) .alreadyExists), s') ∧
      s'.disk = s.disk := by
  obtain ⟨v, w, hwork, hv, hw⟩ := Settings.exists_work_eq (s := g.settings) ho
  obtain ⟨w', s', hsteps, hend, hrun⟩ := g.exec_generateBy σ o s
  rw [hwork] at hsteps
  obtain ⟨hdisk, stage, rfl, hstage⟩ := hsteps.blocked hdry hreuse hpasses hstands
  have hrest : (v.parts ++ w.parts).filterMap (fun p => p.stage.fault?) = [] := by
    rw [List.filterMap_append]
    exact List.append_eq_nil_iff.mpr ⟨Work.faults_of_isNew hv, Work.faults_of_isNew hw⟩
  have hfaults : (Work.seq (.seq (.part ⟨.folder g.settings.outputRoot f.name, stage⟩) v) w).faults =
      stage.fault?.toList := by
    rw [Work.faults, Work.parts, Work.parts, Work.parts, List.append_assoc, List.filterMap_append, hrest]
    cases hfault : stage.fault? <;> simp [hfault]
  have hgoes (hgo : stage.ahead ≠ 0) (hnone : stage.fault? = none) :
      σ.goesOn (Work.seq (.seq (.part ⟨.folder g.settings.outputRoot f.name, stage⟩) v) w) = true := by
    simp [Scheduler.goesOn, hfaults, hnone, Work.canGo, hgo]
  refine ⟨s', ?_, hdisk⟩
  -- the run does not end before the folder has stopped
  rcases hstage with rfl | rfl | rfl
  · rw [hgoes (Nat.succ_ne_zero _) rfl] at hend
    cases hend
  · rw [hgoes (Nat.succ_ne_zero _) rfl] at hend
    cases hend
  · rw [hrun, conclude, hfaults]
    cases σ.picks _ <;> rfl

/-! ## Twice -/

variable {st st' st₁ : RunState} {r : Report} {σ₁ : Scheduler}

/-- **Running twice.** Let a run have succeeded. If folders that exist are used, and the run writes none of its
    templates, then a second run from the disk that the first one left succeeds with the same report, in whatever order
    the two are made. It leaves every place as it is at which the files agree that come last there, and so the whole disk
    if they agree everywhere. If folders that exist are not used, then a second run stops at the first root folder, and
    leaves the disk as it is. -/
theorem generateBy_again (hdry : g.settings.dryRun = false) (hrun : Job.exec (g.generateBy σ₁ o) st = (.ok r, st'))
    (hstart : st₁.disk = st'.disk) (σ₂ : Scheduler) :
    (g.settings.allowExisting = true → g.settings.SparesTemplates o st.disk →
      ∃ st₂, Job.exec (g.generateBy σ₂ o) st₁ = (.ok r, st₂) ∧
        (∀ l, g.settings.AgreesAt o st.disk l → st₂.disk.entryAt? l = st'.disk.entryAt? l) ∧
        ((∀ e ∈ g.settings.filesOf o, g.settings.AgreesAt o st.disk (st.disk.placeOf e.1)) → st₂.disk = st'.disk)) ∧
    (g.settings.allowExisting = false → ∀ f fs, o.folders = f :: fs →
      ∃ st₂, Job.exec (g.generateBy σ₂ o) st₁ =
          (.error (.generation .createFolder (g.settings.outputRoot / g.settings.folderName f.name) .alreadyExists),
            st₂) ∧
        st₂.disk = st'.disk) := by
  obtain ⟨w, hsteps, hmade, rfl⟩ := exec_generateBy_eq_ok hrun
  have hnew := g.settings.isNew_work o
  have hgrown := hsteps.grown hdry hnew
  have hstands := hsteps.stands hdry hnew hmade
  rw [← hstart] at hstands
  refine ⟨fun hreuse hspare => ?_, fun hreuse f fs ho => ?_⟩
  · have hkeeps := hspare.keepsTemplates_work
    have hkeeps' : g.settings.KeepsTemplates st₁.disk (g.settings.work o).tasks := hstart ▸ hkeeps.grows hgrown.grows
    have hallows := hsteps.allows hdry hnew hkeeps hmade
    rw [← hstart] at hallows
    -- nothing is in the way of the second run, so it makes everything
    obtain ⟨w', st₂, hsteps', hend, hagain⟩ := g.exec_generateBy σ₂ o st₁
    have hnone := hsteps'.faults_eq_nil hdry hreuse hnew hkeeps' fun t ht => ⟨hallows t ht, hstands t ht⟩
    have hgo : w'.canGo = false := by simpa [Scheduler.goesOn, hnone] using hend
    have hmade' := Work.isMade_of_not_canGo hgo hnone
    -- both runs come to the same work, and so to the same report
    have hsame : w' = w := by
      rw [hsteps'.eq_withStages hdry hnew hkeeps' hmade', hsteps.eq_withStages hdry hnew hkeeps hmade]
      refine Work.withStages_congr fun t ht => ?_
      rw [hstart, resultOf_congr (hsteps.sameTemplates hdry hnew hkeeps) ht]
    rw [conclude_of_faults_nil hnone, hsame] at hagain
    have hplace : ∀ l, g.settings.AgreesAt o st.disk l → st₂.disk.entryAt? l = st'.disk.entryAt? l :=
      fun l hagree => entryAt?_again hdry hkeeps hsteps hmade hstart hsteps' hmade' hagree
    refine ⟨st₂, hagain, hplace, fun hagree => ?_⟩
    obtain ⟨es, hes⟩ := (hsteps'.grown hdry hnew).putAll
    rw [hes, hstart] at hplace ⊢
    refine FileSystem.putAll_eq_self fun l => hplace l fun f hf => ?_
    -- a place at which a file comes last is that of a file
    obtain ⟨e, he, rfl⟩ := Settings.exists_mem_filesOf hf
    exact hagree e he f hf
  · obtain ⟨v, w₁, hwork, -, -⟩ := Settings.exists_work_eq (s := g.settings) ho
    have hfirst : Task.folder g.settings.outputRoot f.name ∈ (g.settings.work o).tasks := by
      rw [hwork]
      exact List.mem_cons_self
    obtain ⟨r, hr⟩ := Work.exists_made hmade (hsteps.tasks ▸ hfirst)
    have hpasses := hsteps.passes_requireFolder hdry hnew hr
    obtain ⟨st₂, hstop, hdisk⟩ := exec_generateBy_of_blocked ho hdry hreuse hpasses (hstands _ hfirst) σ₂
    exact ⟨st₂, hstop, hdisk.trans hstart⟩

/-- A file that is written twice, the second time from a template and by a path that leads up and down again, in a root
    folder that comes twice: where folders that exist are used, a second run comes to the same, in whatever order. Where
    they are not used, even a run of one folder cannot be repeated. -/
theorem generateBy_again_overwritten :
    let s : Settings := { templatesDir := .ofString "t", allowExisting := true }
    let g : Generator := { settings := s }
    let h : Generator := { settings := { s with allowExisting := false } }
    let x : File := { templateId := "T", name := "x", parameters := some (.ofList [("K", "___L___")]) }
    let a : Folder := .mk "a" [{ name := "x" }] [.mk ".." [] [.mk "a" [x] []]]
    let st : RunState :=
      { disk := { entries := [(["t"], .folder), (["t", "T"], .file (Utf8.encode "___K___".toList))] } }
    (∃ r st', Job.exec (g.generateBy .inTurn { folders := [a, a] }) st = (.ok r, st') ∧
      ∃ st₂, Job.exec (g.generateBy .inStep { folders := [a, a] }) st' = (.ok r, st₂) ∧ st₂.disk = st'.disk) ∧
    ∃ r st', Job.exec (h.generateBy .inStep { folders := [.mk "a" [x] []] }) st = (.ok r, st') ∧
      ∃ st₂, Job.exec (h.generateBy .inTurn { folders := [.mk "a" [x] []] }) st' =
          (.error (.generation .createFolder (.ofString "a") .alreadyExists), st₂) ∧
        st₂.disk = st'.disk := by
  intro s g h x a st
  have hspare : s.SparesTemplates { folders := [a, a] } st.disk := by decide +kernel +revert
  have hagree : ∀ e ∈ s.filesOf { folders := [a, a] },
      s.AgreesAt { folders := [a, a] } st.disk (st.disk.placeOf e.1) := by
    clear hspare
    decide +kernel +revert
  have hpath : h.settings.outputRoot / h.settings.folderName "a" = .ofString "a" := by
    clear hspare hagree
    decide +kernel +revert
  have htwice : (Job.exec (g.generateBy .inTurn { folders := [a, a] }) st).1.toOption.isSome = true := by
    clear hspare hagree hpath
    decide +kernel +revert
  have honce : (Job.exec (h.generateBy .inStep { folders := [.mk "a" [x] []] }) st).1.toOption.isSome = true := by
    clear hspare hagree hpath htwice
    decide +kernel +revert
  constructor
  · obtain ⟨r, st', hrun⟩ := Job.exec_eq_ok_of_isSome htwice
    obtain ⟨st₂, hagain, -, hdisk⟩ := (generateBy_again rfl hrun rfl .inStep).1 rfl hspare
    exact ⟨r, st', hrun, st₂, hagain, hdisk hagree⟩
  · obtain ⟨r, st', hrun⟩ := Job.exec_eq_ok_of_isSome honce
    exact ⟨r, st', hrun, hpath ▸ (generateBy_again rfl hrun rfl .inTurn).2 rfl (.mk "a" [x] []) [] rfl⟩

/-- **A second run may leave another file.** Of two files with one path, the first one from a template, the second one
    comes last if all are made in turn; if they are made in step, the first one does. -/
theorem generateBy_again_other_file :
    let s : Settings := { templatesDir := .ofString "t", allowExisting := true }
    let g : Generator := { settings := s }
    let o : Outline := { folders := [.mk "a" [{ templateId := "T", name := "x" }, { name := "x" }] []] }
    let st : RunState :=
      { disk := { entries := [(["t"], .folder), (["t", "T"], .file (Utf8.encode "text".toList))] } }
    s.SparesTemplates o st.disk ∧ ∃ r st', Job.exec (g.generateBy .inTurn o) st = (.ok r, st') ∧
      ∃ r₂ st₂, Job.exec (g.generateBy .inStep o) st' = (.ok r₂, st₂) ∧ st₂.disk ≠ st'.disk := by
  intro s g o st
  have hspare : s.SparesTemplates o st.disk := by decide +kernel +revert
  have hfirst : (Job.exec (g.generateBy .inTurn o) st).1.toOption.isSome = true := by
    clear hspare
    decide +kernel +revert
  have hsecond : (Job.exec (g.generateBy .inStep o) (Job.exec (g.generateBy .inTurn o) st).2).1.toOption.isSome = true
      := by
    clear hspare hfirst
    decide +kernel +revert
  have hdisk : (Job.exec (g.generateBy .inStep o) (Job.exec (g.generateBy .inTurn o) st).2).2.disk ≠
      (Job.exec (g.generateBy .inTurn o) st).2.disk := by
    clear hspare hfirst hsecond
    decide +kernel +revert
  obtain ⟨r, st', hrun⟩ := Job.exec_eq_ok_of_isSome hfirst
  rw [hrun] at hsecond hdisk
  obtain ⟨r₂, st₂, hagain⟩ := Job.exec_eq_ok_of_isSome hsecond
  rw [hagain] at hdisk
  exact ⟨hspare, r, st', hrun, r₂, st₂, hagain, hdisk⟩

end Generator

end Stencil
