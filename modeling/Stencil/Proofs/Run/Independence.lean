import Stencil.Proofs.Run.Feasible
import Stencil.Proofs.Run.Places

/-!
# `Stencil.Proofs.Run.Independence` — the order of a run does not matter

## Contents
- **Independent tasks.** Tasks with plain names at distinct places, none of them on the way to a template.
- **Under way.** `Settings.Partway` says what a run has made of a disk, in terms of the disk at its start. Whether a
  task can be done, and what comes of it, stays the same all along.
- **Runs.** A run of independent tasks that find their folders succeeds just if each of them can be done on the disk at
  its start; so any other such order succeeds as well, and comes to the same (`exec_performAll_of_perm`).
- **Schedules.** The sequential run succeeds just if any other schedule does, with the same disk and the same results
  (`generate_iff_schedule`).
-/

namespace Stencil

/-! ## Independent tasks -/

namespace Settings

variable {s : Settings} {fs fs₁ fs₂ : FileSystem} {t : Task} {ts us vs done rest : List Task} {o : Outline}

/-- Whether a task creates or writes what is at a location: it works there, and does not just use a folder that is there
    already. -/
def Touches (s : Settings) (fs : FileSystem) (t : Task) (l : Location) : Prop :=
  fs.placeOf (s.pathOf t) = l ∧ ¬ ((s.folderOf? t).isSome = true ∧ fs.entryAt? l = some .folder)

instance (l : Location) : Decidable (s.Touches fs t l) :=
  inferInstanceAs (Decidable (_ ∧ ¬ (_ ∧ _)))

/-- Tasks that do not get in each other's way: their names are plain, their places are distinct, and none of them
    touches what is on the way to a template. -/
structure Independent (s : Settings) (fs : FileSystem) (ts : List Task) : Prop where
  plain : ∀ t ∈ ts, IsPlainComponent (s.nameOf t)
  distinct : (ts.map fun t => fs.placeOf (s.pathOf t)).Nodup
  shuns : ∀ folder f, .file folder f ∈ ts → f.templateId ≠ "" →
    ∀ l ∈ fs.trail (s.templatePath f), ∀ t ∈ ts, ¬ s.Touches fs t l

theorem Independent.perm (h : s.Independent fs us) (hperm : us.Perm vs) : s.Independent fs vs := by
  refine ⟨fun t ht => h.plain t (hperm.mem_iff.mpr ht), ?_, fun folder f hf hid l hl t ht => ?_⟩
  · exact (hperm.map _).nodup_iff.mp h.distinct
  · exact h.shuns folder f (hperm.mem_iff.mpr hf) hid l hl t (hperm.mem_iff.mpr ht)

/-- A task has another place than those before it. -/
theorem Independent.ne (h : s.Independent fs (done ++ t :: rest)) {u : Task} (hu : u ∈ done) :
    fs.placeOf (s.pathOf u) ≠ fs.placeOf (s.pathOf t) := by
  have hnodup := h.distinct
  rw [List.map_append, List.map_cons, List.nodup_append] at hnodup
  exact hnodup.2.2 _ (List.mem_map_of_mem hu) _ List.mem_cons_self

/-- Nothing that an outline asks for touches what is on the way to a template, the template included. -/
def ShunsTemplates (s : Settings) (o : Outline) (fs : FileSystem) : Prop :=
  ∀ e ∈ s.filesOf o, e.2.templateId ≠ "" →
    ∀ l ∈ fs.trail (s.templatePath e.2), ∀ t ∈ s.plan o, ¬ s.Touches fs t l

instance : Decidable (s.ShunsTemplates o fs) :=
  inferInstanceAs (Decidable (∀ e ∈ s.filesOf o, _ → ∀ l ∈ _, ∀ t ∈ s.plan o, _))

/-- **The tasks of a plan are independent** if the names are plain and distinct and the templates lie elsewhere. -/
theorem independent_plan (hplain : s.HasPlainNames o) (hdistinct : s.HasDistinctNames o)
    (hshuns : s.ShunsTemplates o fs) : s.Independent fs (s.plan o) := by
  refine ⟨fun t ht => ?_, nodup_places hplain hdistinct, fun folder f hf => ?_⟩
  · rw [plan_eq_flatMap_walk] at ht
    obtain ⟨p, hp, ht⟩ := List.mem_flatMap.mp ht
    obtain ⟨hname, hfiles⟩ := hplain p hp
    rcases List.mem_cons.mp ht with rfl | ht
    · exact hname
    · obtain ⟨f, hf, rfl⟩ := List.mem_map.mp ht
      exact hfiles f hf
  · have hmem : (folder / s.fileName f, f) ∈ (s.plan o).filterMap s.fileOf? :=
      List.mem_filterMap.mpr ⟨.file folder f, hf, rfl⟩
    rw [filterMap_fileOf?_plan] at hmem
    exact hshuns _ hmem

/-! ## Under way -/

/-- What a run that started on the disk `fs` and has done the tasks `done` has made of the disk. -/
structure Partway (s : Settings) (fs : FileSystem) (done : List Task) (fs₁ : FileSystem) : Prop where
  grows : FileSystem.Grows fs fs₁
  frame : ∀ l, (∀ t ∈ done, fs.placeOf (s.pathOf t) ≠ l) → fs₁.entryAt? l = fs.entryAt? l
  made : ∀ t ∈ done, fs₁.entryAt? (fs.placeOf (s.pathOf t)) = some (s.entryOf fs t)
  opens : ∀ p ∈ done.filterMap s.folderOf?, fs₁.Opens p

theorem partway_nil (s : Settings) (fs : FileSystem) : s.Partway fs [] fs :=
  ⟨.refl fs, fun _ _ => rfl, by simp, by simp⟩

/-- **One step.** An independent task that is done makes what it would have made at the start. -/
theorem Partway.step (h : s.Partway fs done fs₁) (hind : s.Independent fs (done ++ t :: rest))
    (hmade : s.Made t fs₁ fs₂) (hentry : s.entryOf fs₁ t = s.entryOf fs t) : s.Partway fs (done ++ [t]) fs₂ := by
  have hplace := h.grows.placeOf (s.pathOf t)
  refine ⟨h.grows.trans hmade.grows, fun l hl => ?_, fun u hu => ?_, fun p hp => ?_⟩
  · have hown : fs₁.placeOf (s.pathOf t) ≠ l := by
      rw [hplace]
      exact hl t (by simp)
    rw [hmade.frame hown]
    exact h.frame l fun u hu => hl u (List.mem_append_left _ hu)
  · rcases List.mem_append.mp hu with hu | hu
    · have hother : fs₁.placeOf (s.pathOf t) ≠ fs.placeOf (s.pathOf u) := by
        rw [hplace]
        exact (hind.ne hu).symm
      rw [hmade.frame hother]
      exact h.made u hu
    · obtain rfl := List.mem_singleton.mp hu
      rw [← hplace, ← hentry]
      exact hmade.entryAt?.2
  · rw [List.filterMap_append] at hp
    rcases List.mem_append.mp hp with hp | hp
    · exact hmade.grows.opens (h.opens p hp)
    · obtain ⟨u, hu, hup⟩ := List.mem_filterMap.mp hp
      obtain rfl := List.mem_singleton.mp hu
      obtain ⟨hreach, hfolder⟩ := FileSystem.holdsFolder_eq_ok_true_iff.mp (hmade.holdsFolder hup)
      exact FileSystem.opens_of_locate hreach hfolder

/-- What no task has touched is as it was. -/
theorem Partway.entryAt? {l : Location} (h : s.Partway fs done fs₁) (hl : ∀ t ∈ done, ¬ s.Touches fs t l) :
    fs₁.entryAt? l = fs.entryAt? l := by
  by_cases hplace : ∃ t ∈ done, fs.placeOf (s.pathOf t) = l
  · obtain ⟨t, ht, hplace⟩ := hplace
    have hmade := h.made t ht
    have huntouched := hl t ht
    rw [Touches, not_and, not_not] at huntouched
    obtain ⟨hfolder, hthere⟩ := huntouched hplace
    -- the task has used a folder
    rw [hplace] at hmade
    rw [hmade, hthere]
    cases t with
    | folder parent name => rfl
    | file folder f => cases hfolder
  · exact h.frame l fun t ht heq => hplace ⟨t, ht, heq⟩

/-- A task that finds its folder made, or works in the root, works in an open folder. -/
theorem Partway.opens_parentOf {root : Path} (h : s.Partway fs done fs₁) (hroot : fs.Opens root)
    (hready : IsReady root (done.filterMap s.folderOf?) t) : fs₁.Opens (parentOf t) := by
  cases t with
  | folder parent name =>
    rcases hready with rfl | hmade
    · exact h.grows.opens hroot
    · exact h.opens parent hmade
  | file folder f => exact h.opens folder hready

/-- **What a run has made does not depend on the order of its tasks.** -/
theorem Partway.alike (h : s.Partway fs us fs₁) (h' : s.Partway fs vs fs₂) (hperm : us.Perm vs) : fs₁.Alike fs₂ := by
  refine ⟨h'.grows.workingFolder.trans h.grows.workingFolder.symm, fun l => ?_⟩
  by_cases hl : ∃ t ∈ us, fs.placeOf (s.pathOf t) = l
  · obtain ⟨t, ht, rfl⟩ := hl
    rw [h.made t ht, h'.made t (hperm.mem_iff.mp ht)]
  · have hnone : ∀ t ∈ us, fs.placeOf (s.pathOf t) ≠ l := fun t ht heq => hl ⟨t, ht, heq⟩
    rw [h.frame l hnone, h'.frame l fun t ht => hnone t (hperm.mem_iff.mpr ht)]

end Settings

/-! ## Runs -/

/-- Reports put together, one after the other. -/
def Report.collect : List Report → Report
  | [] => {}
  | r :: rs => r.extend (collect rs)

namespace Generator

variable {g : Generator} {fs fs₁ : FileSystem} {t : Task} {ts us vs done rest : List Task} {st st' : RunState}
  {r : Report} {root : Path}

/-- A task that can be done at the start can be done later, with the same outcome. -/
theorem can_partway (h : g.settings.Partway fs done fs₁) (hind : g.settings.Independent fs (done ++ t :: rest)) :
    (g.Can fs₁ t ↔ g.Can fs t) ∧
      (g.Can fs t → g.settings.entryOf fs₁ t = g.settings.entryOf fs t ∧ g.resultOf fs₁ t = g.resultOf fs t) := by
  apply can_congr h.grows.workingFolder
  · exact h.frame _ fun u hu => hind.ne hu
  · rintro folder f rfl hid l hl
    exact h.entryAt? fun u hu => hind.shuns folder f (by simp) hid l hl u (List.mem_append_left _ hu)

/-- What a task needs in all: that it can be done, and that its name fits where it works. -/
def IsFeasible (g : Generator) (fs : FileSystem) (t : Task) : Prop :=
  g.Can fs t ∧ FileSystem.Fits (Settings.parentOf t) (g.settings.nameOf t)

/-- **One step.** An independent task that is performed was feasible at the start, worked in an open folder, and has
    the outcome that it would have had at the start. -/
theorem feasible_of_perform (hdry : g.settings.dryRun = false) (h : g.settings.Partway fs done st.disk)
    (hind : g.settings.Independent fs (done ++ t :: rest)) (hrun : Job.exec (g.perform t) st = (.ok r, st')) :
    g.IsFeasible fs t ∧ st.disk.Opens (Settings.parentOf t) ∧ g.settings.Partway fs (done ++ [t]) st'.disk ∧
      r = g.resultOf fs t := by
  obtain ⟨hcan, rfl⟩ := can_of_exec_perform hdry hrun
  obtain ⟨hiff, houtcome⟩ := can_partway h hind
  obtain ⟨hentry, hresult⟩ := houtcome (hiff.mp hcan)
  have hmade := made_of_perform hdry hrun
  have hreach := hmade.entryAt?.1
  rw [Settings.pathOf_eq, FileSystem.locate_join_iff (hind.plain t (by simp))] at hreach
  exact ⟨⟨hiff.mp hcan, hreach.1⟩, hreach.2, h.step hind hmade hentry, hresult⟩

/-- **A run of independent tasks** that succeeds: each of them was feasible at the start, and has the outcome that it
    would have had at the start. -/
theorem feasible_of_performAll (hdry : g.settings.dryRun = false) (h : g.settings.Partway fs done st.disk)
    (hind : g.settings.Independent fs (done ++ ts)) (hrun : Job.exec (g.performAll ts) st = (.ok r, st')) :
    (∀ t ∈ ts, g.IsFeasible fs t) ∧ g.settings.Partway fs (done ++ ts) st'.disk ∧
      r = .collect (ts.map (g.resultOf fs)) := by
  induction ts generalizing done st r with
  | nil =>
    cases hrun
    exact ⟨by simp, by simpa using h, rfl⟩
  | cons t ts ih =>
    obtain ⟨first, s₁, others, hfirst, hothers, rfl⟩ := g.exec_performAll_cons_eq_ok_iff.mp hrun
    obtain ⟨hfeasible, -, hnext, rfl⟩ := feasible_of_perform hdry h hind hfirst
    have hind' : g.settings.Independent fs (done ++ [t] ++ ts) := by simpa using hind
    obtain ⟨hall, hend, rfl⟩ := ih hnext hind' hothers
    refine ⟨fun u hu => ?_, by simpa using hend, rfl⟩
    rcases List.mem_cons.mp hu with rfl | hu
    · exact hfeasible
    · exact hall u hu

/-- **Independent tasks that are feasible at the start are performed with success**, if each finds its folder. -/
theorem exec_performAll_of_feasible (hdry : g.settings.dryRun = false) (h : g.settings.Partway fs done st.disk)
    (hind : g.settings.Independent fs (done ++ ts)) (hroot : fs.Opens root)
    (horder : g.settings.ParentsFirst root (done.filterMap g.settings.folderOf?) ts)
    (hall : ∀ t ∈ ts, g.IsFeasible fs t) : ∃ r st', Job.exec (g.performAll ts) st = (.ok r, st') := by
  induction ts generalizing done st with
  | nil => exact ⟨{}, st, rfl⟩
  | cons t ts ih =>
    obtain ⟨hready, horder⟩ := horder
    obtain ⟨hcan, hfits⟩ := hall t List.mem_cons_self
    have hreach := (FileSystem.locate_join_iff (hind.plain t (by simp))).mpr ⟨hfits, h.opens_parentOf hroot hready⟩
    rw [← Settings.pathOf_eq] at hreach
    obtain ⟨first, s₁, hfirst⟩ := exec_perform_of_can hdry ((can_partway h hind).1.mpr hcan) hreach
    obtain ⟨-, -, hnext, -⟩ := feasible_of_perform hdry h hind hfirst
    have hind' : g.settings.Independent fs (done ++ [t] ++ ts) := by simpa using hind
    have horder' : g.settings.ParentsFirst root ((done ++ [t]).filterMap g.settings.folderOf?) ts := by
      rw [List.filterMap_append, Settings.folders_cons]
      simpa using horder
    obtain ⟨others, s₂, hothers⟩ := ih hnext hind' horder' fun u hu => hall u (List.mem_cons_of_mem t hu)
    exact ⟨_, s₂, g.exec_performAll_cons_eq_ok_iff.mpr ⟨first, s₁, others, hfirst, hothers, rfl⟩⟩

/-- The first of tasks that find their folders makes one in the root, which has to be open. -/
theorem opens_root (hdry : g.settings.dryRun = false) (hind : g.settings.Independent st.disk (t :: ts))
    (horder : g.settings.ParentsFirst root [] (t :: ts)) (hrun : Job.exec (g.performAll (t :: ts)) st = (.ok r, st')) :
    st.disk.Opens root := by
  obtain ⟨hready, -⟩ := horder
  obtain ⟨first, s₁, others, hfirst, -, -⟩ := g.exec_performAll_cons_eq_ok_iff.mp hrun
  obtain ⟨-, hopens, -, -⟩ := feasible_of_perform hdry (g.settings.partway_nil st.disk) hind hfirst
  cases t with
  | folder parent name =>
    rcases hready with rfl | hnone
    · exact hopens
    · cases hnone
  | file folder f => cases hready

/-- Two runs from the disk `fs` that come to the same: nothing tells the disks `fs₁` and `fs₂` apart, and each task has
    the same result in both. So the report is the same if the results are put together in the same order. -/
structure Agree (g : Generator) (fs : FileSystem) (us vs : List Task) (r r' : Report) (fs₁ fs₂ : FileSystem) :
    Prop where
  disk : fs₁.Alike fs₂
  left : r = .collect (us.map (g.resultOf fs))
  right : r' = .collect (vs.map (g.resultOf fs))

/-- What a task reports for show does not depend on the disk. -/
theorem result_of_dryRun (hdry : g.settings.dryRun = true) (fs : FileSystem)
    (h : Job.exec (g.perform t) st = (.ok r, st')) : r = g.resultOf fs t := by
  cases t with
  | folder parent name =>
    obtain ⟨path, s₁, hfolder, hlast⟩ := Job.exec_bind_eq_ok h
    obtain ⟨rfl, -⟩ := Job.exec_pure_eq_ok hlast
    rw [g.makeFolder_yields parent name st path s₁ hfolder]
    rfl
  | file folder f =>
    rw [perform, makeFile] at h
    simp only [hdry, if_true] at h
    obtain ⟨rfl, -⟩ := Job.exec_pure_eq_ok h
    rw [resultOf, hdry, if_pos rfl, List.append_nil]

theorem results_of_dryRun (hdry : g.settings.dryRun = true) (fs : FileSystem)
    (h : Job.exec (g.performAll ts) st = (.ok r, st')) : r = .collect (ts.map (g.resultOf fs)) := by
  induction ts generalizing st r with
  | nil =>
    cases h
    rfl
  | cons t ts ih =>
    obtain ⟨first, s₁, others, hfirst, hothers, rfl⟩ := g.exec_performAll_cons_eq_ok_iff.mp h
    rw [result_of_dryRun hdry fs hfirst, ih hothers]
    rfl

/-- For show, all orders come to the same. -/
theorem exec_performAll_of_perm_dryRun (hdry : g.settings.dryRun = true)
    (hrun : Job.exec (g.performAll us) st = (.ok r, st')) (vs : List Task) :
    ∃ r' st'', Job.exec (g.performAll vs) st = (.ok r', st'') ∧ g.Agree st.disk us vs r r' st'.disk st''.disk := by
  obtain ⟨_, s₁, hrun₁, hsame₁⟩ := exec_performAll_of_dryRun (s := st) hdry us
  obtain ⟨r', s₂, hrun₂, hsame₂⟩ := exec_performAll_of_dryRun (s := st) hdry vs
  have heq := hrun.symm.trans hrun₁
  cases heq
  have halike : st'.disk.Alike s₂.disk := by
    rw [hsame₁, hsame₂]
    exact ⟨rfl, fun l => rfl⟩
  exact ⟨r', s₂, hrun₂, halike, results_of_dryRun hdry _ hrun, results_of_dryRun hdry _ hrun₂⟩

/-- **Order does not matter** for independent tasks that find their folders: if they are performed with success in one
    order, then also in any other, and both come to the same. -/
theorem exec_performAll_of_perm (hperm : us.Perm vs) (hind : g.settings.Independent st.disk us)
    (hus : g.settings.ParentsFirst root [] us) (hvs : g.settings.ParentsFirst root [] vs)
    (hrun : Job.exec (g.performAll us) st = (.ok r, st')) :
    ∃ r' st'', Job.exec (g.performAll vs) st = (.ok r', st'') ∧ g.Agree st.disk us vs r r' st'.disk st''.disk := by
  by_cases hdry : g.settings.dryRun = true
  · exact exec_performAll_of_perm_dryRun hdry hrun vs
  · have hdry : g.settings.dryRun = false := by simpa using hdry
    have hstart := g.settings.partway_nil st.disk
    have hind' := hind.perm hperm
    obtain ⟨hall, hend, hr⟩ := feasible_of_performAll hdry hstart hind hrun
    have hsucceeds : ∃ r' st'', Job.exec (g.performAll vs) st = (.ok r', st'') := by
      cases us with
      | nil =>
        obtain rfl := List.nil_perm.mp hperm
        exact ⟨r, st', hrun⟩
      | cons u us =>
        exact exec_performAll_of_feasible hdry hstart hind' (opens_root hdry hind hus hrun) hvs
          fun t ht => hall t (hperm.mem_iff.mpr ht)
    obtain ⟨r', st'', hrun'⟩ := hsucceeds
    obtain ⟨-, hend', hr'⟩ := feasible_of_performAll hdry hstart hind' hrun'
    exact ⟨r', st'', hrun', hend.alike hend' hperm, hr, hr'⟩

/-! ## Schedules -/

/-- **A run may follow any schedule.** If the names are plain and distinct, and the run touches nothing on the way to a
    template, then the sequential run succeeds just if the schedule does, and both come to the same. -/
theorem generate_iff_schedule {o : Outline} (hplain : g.settings.HasPlainNames o)
    (hdistinct : g.settings.HasDistinctNames o) (hshuns : g.settings.ShunsTemplates o st.disk)
    (hus : g.settings.Schedules o.folders us) :
    (∀ r st', Job.exec (g.generate o) st = (.ok r, st') →
      ∃ r' st'', Job.exec (g.performAll us) st = (.ok r', st'') ∧
        g.Agree st.disk (g.settings.plan o) us r r' st'.disk st''.disk) ∧
    (∀ r' st'', Job.exec (g.performAll us) st = (.ok r', st'') →
      ∃ r st', Job.exec (g.generate o) st = (.ok r, st') ∧
        g.Agree st.disk us (g.settings.plan o) r' r st''.disk st'.disk) := by
  have hind := Settings.independent_plan hplain hdistinct hshuns
  have hperm : (g.settings.plan o).Perm us := hus.perm.symm
  have hplan := g.settings.parentsFirst_plan o
  have hschedule : g.settings.ParentsFirst g.settings.outputRoot [] us := hus.parentsFirst
  rw [generate_eq_performAll]
  refine ⟨fun r st' hrun => ?_, fun r' st'' hrun => ?_⟩
  · exact exec_performAll_of_perm hperm hind hplan hschedule hrun
  · exact exec_performAll_of_perm hperm.symm (hind.perm hperm) hschedule hplan hrun

/-- One folder with two files, the second of them made first, and two subfolders that are made by turns. -/
theorem generate_iff_schedule_by_turns :
    let s : Settings := { templatesDir := .ofString "t" }
    let x : File := { templateId := "T", name := "x" }
    let y : File := { name := "y" }
    let o : Outline := { folders := [.mk "a" [x, y] [.mk "b" [y] [], .mk "c" [x] []]] }
    let a : Path := s.outputRoot / s.folderName "a"
    let us : List Task :=
      [.folder s.outputRoot "a", .file a y, .file a x, .folder a "c", .folder a "b",
        .file (a / s.folderName "c") x, .file (a / s.folderName "b") y]
    let st : RunState := { disk := { entries := [(["t"], .folder), (["t", "T"], .file [0x54])] } }
    ∃ r st', Job.exec (generate { settings := s } o) st = (.ok r, st') ∧
      ∃ r' st'', Job.exec (performAll { settings := s } us) st = (.ok r', st'') ∧
        Agree { settings := s } st.disk (s.plan o) us r r' st'.disk st''.disk := by
  intro s x y o a us st
  have hplain : s.HasPlainNames o := by decide +kernel +revert
  have hdistinct : s.HasDistinctNames o := by
    clear hplain
    decide +kernel +revert
  have hshuns : s.ShunsTemplates o st.disk := by
    clear hplain hdistinct
    decide +kernel +revert
  have hok : (Job.exec (generate { settings := s } o) st).1.toOption.isSome = true := by
    clear hplain hdistinct hshuns
    decide +kernel +revert
  have hsecond : s.Schedule a [.mk "c" [x] []] [.folder a "c", .file (a / s.folderName "c") x] :=
    .cons (.refl [x]) .nil .nil (.left (.left .nil))
  have hturns : s.Schedule a [.mk "b" [y] [], .mk "c" [x] []]
      [.folder a "c", .folder a "b", .file (a / s.folderName "c") x, .file (a / s.folderName "b") y] :=
    .cons (.refl [y]) .nil hsecond (.right (.left (.right (.left .nil))))
  have hroot : s.Schedule s.outputRoot o.folders us := .cons (.swap x y []) hturns .nil (Interleaves.left_all us)
  have hschedule : s.Schedules o.folders us := us.append_nil ▸ .cons hroot .nil
  cases hrun : Job.exec (generate { settings := s } o) st with
  | mk result st' =>
    cases result with
    | ok r =>
      have hboth := @generate_iff_schedule { settings := s } us st o hplain hdistinct hshuns hschedule
      exact ⟨r, st', rfl, hboth.1 r st' hrun⟩
    | error f =>
      rw [hrun] at hok
      cases hok

end Generator

end Stencil
