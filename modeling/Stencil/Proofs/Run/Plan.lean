import Stencil.Proofs.Outline.Walk
import Stencil.Proofs.Path
import Stencil.Run.Work

/-!
# `Stencil.Proofs.Run.Plan` — a run as a list of tasks

## Contents
- **Results.** `Job.Yields` says what holds of every result of a job; with it, jobs are put together in
  another order (`bind_congr`).
- **Tasks.** `Settings.plan` lists what an outline asks for, a task for each folder and each file: a folder
  before its files, these before its subfolders.
- **Performing.** Generating an outline is performing its plan from the left and stopping at the first
  fault (`generate_eq_performAll`).
- **Walks.** The plan follows the walk of the outline (`plan_eq_flatMap_walk`).
-/

namespace Stencil

/-! ## Results -/

namespace Job

variable {α β : Type} {job : Job α} {next : α → Job β} {p : α → Prop} {q : β → Prop}

/-- Every result of a job has a property. -/
def Yields (job : Job α) (p : α → Prop) : Prop := ∀ s a s', exec job s = (.ok a, s') → p a

theorem exec_ext {job job' : Job α} (h : ∀ s, exec job s = exec job' s) : job = job' := funext h

theorem yields_pure {a : α} (h : p a) : Yields (pure a) p := by
  intro s b s' hb
  rw [exec_pure] at hb
  cases hb
  exact h

theorem yields_true (job : Job α) : Yields job fun _ => True := fun _ _ _ _ => trivial

theorem Yields.bind (h : Yields job p) (hn : ∀ a, p a → Yields (next a) q) : Yields (job >>= next) q := by
  intro s b s' hb
  rw [exec_bind] at hb
  split at hb
  · next a s₁ ha => exact hn a (h s a s₁ ha) s₁ b s' hb
  · cases hb

theorem Yields.and {p' : α → Prop} (h : Yields job p) (h' : Yields job p') : Yields job fun a => p a ∧ p' a :=
  fun s a s' ha => ⟨h s a s' ha, h' s a s' ha⟩

/-- A job has a result if it is seen to have one. -/
theorem exec_eq_ok_of_isSome {s : RunState} (h : (exec job s).1.toOption.isSome = true) :
    ∃ a s', exec job s = (.ok a, s') := by
  cases hrun : exec job s with
  | mk result s' =>
    rw [hrun] at h
    cases result with
    | ok a => exact ⟨a, s', rfl⟩
    | error f => cases h

/-- What follows a job matters only for the results that the job can have. -/
theorem bind_congr {next' : α → Job β} (h : Yields job p) (hn : ∀ a, p a → next a = next' a) :
    job >>= next = job >>= next' := by
  apply exec_ext
  intro s
  rw [exec_bind, exec_bind]
  split
  · next a s₁ ha => rw [hn a (h s a s₁ ha)]
  · rfl

end Job

namespace Report

/-- Reports may be put together in any grouping. -/
theorem extend_assoc (r t : Report) {s : Report} (h : (Entries.keys s.unresolved).Nodup) :
    r.extend (s.extend t) = (r.extend s).extend t := by
  simp only [Report.extend, Report.mk.injEq, List.append_assoc, true_and]
  exact Entries.merge_assoc r.unresolved t.unresolved h

end Report

/-! ## Tasks -/

namespace Settings

variable (s : Settings)

/-- The path of the folder that a task makes, if it makes one. -/
def folderOf? : Task → Option Path
  | .folder parent name => some (parent / s.folderName name)
  | .file _ _ => none

/-- The file that a task makes, with its path, if it makes one. -/
def fileOf? : Task → Option (Path × File)
  | .folder _ _ => none
  | .file folder f => some (folder / s.fileName f, f)

mutual

/-- What a folder asks for: itself, then its files, then its subfolders. -/
def planFolder (parent : Path) : Folder → List Task
  | .mk name files folders =>
    .folder parent name ::
      (files.map (.file (parent / s.folderName name)) ++ planFolders (parent / s.folderName name) folders)

/-- What several folders ask for, one after the other. -/
def planFolders (parent : Path) : List Folder → List Task
  | [] => []
  | f :: fs => planFolder parent f ++ planFolders parent fs

end

/-- A report that lists what tasks make, in order, and names no file twice among those with keys without a
    value. -/
structure Reports (ts : List Task) (r : Report) : Prop where
  folders : r.folders = ts.filterMap s.folderOf?
  files : r.files = (ts.filterMap s.fileOf?).map Prod.fst
  proper : (Entries.keys r.unresolved).Nodup

variable {s} in
theorem Reports.extend {ts us : List Task} {r r' : Report} (h : s.Reports ts r) (h' : s.Reports us r') :
    s.Reports (ts ++ us) (r.extend r') := by
  constructor
  · rw [List.filterMap_append, ← h.folders, ← h'.folders]
    rfl
  · rw [List.filterMap_append, List.map_append, ← h.files, ← h'.files]
    rfl
  · exact Entries.nodup_keys_merge r'.unresolved h.proper

/-- What tasks make is folders and files. -/
theorem map_pathOf_perm (ts : List Task) :
    (ts.map s.pathOf).Perm (ts.filterMap s.folderOf? ++ (ts.filterMap s.fileOf?).map Prod.fst) := by
  induction ts with
  | nil => exact .nil
  | cons t ts ih =>
    cases t with
    | folder parent name => exact ih.cons (parent / s.folderName name)
    | file folder f => exact (ih.cons (folder / s.fileName f)).trans List.perm_middle.symm

variable {s} in
/-- A report lists what the tasks make, and nothing else. -/
theorem Reports.perm {ts : List Task} {r : Report} (h : s.Reports ts r) :
    (ts.map s.pathOf).Perm (r.folders ++ r.files) := by
  rw [h.folders, h.files]
  exact s.map_pathOf_perm ts

variable {s} in
/-- What a task makes is among the folders or the files of the report. -/
theorem Reports.pathOf_mem {t : Task} {ts : List Task} {r : Report} (h : s.Reports ts r) (ht : t ∈ ts) :
    s.pathOf t ∈ r.folders ++ r.files := h.perm.mem_iff.mp (List.mem_map_of_mem ht)

variable {s} in
/-- The task that makes a file cuts a list of tasks: before it and behind it stand those that make the other files. -/
theorem exists_cut {ts : List Task} {before after : List (Path × File)} {p : Path} {f : File}
    (h : ts.filterMap s.fileOf? = before ++ (p, f) :: after) :
    ∃ done folder rest, ts = done ++ .file folder f :: rest ∧ folder / s.fileName f = p ∧
      done.filterMap s.fileOf? = before ∧ rest.filterMap s.fileOf? = after := by
  obtain ⟨us, vs, rfl, hus, hvs⟩ := List.filterMap_eq_append_iff.mp h
  obtain ⟨ws, t, rest, rfl, hws, ht, hrest⟩ := List.filterMap_eq_cons_iff.mp hvs
  cases t with
  | folder parent name => cases ht
  | file folder f' =>
    simp only [fileOf?, Option.some.injEq, Prod.mk.injEq] at ht
    obtain ⟨hpath, rfl⟩ := ht
    refine ⟨us ++ ws, folder, rest, (List.append_assoc us ws _).symm, hpath, ?_, hrest⟩
    -- the tasks between that make no file do not matter
    rw [List.filterMap_append, hus, List.filterMap_eq_nil_iff.mpr hws, List.append_nil]

theorem reports_nil : s.Reports [] {} := ⟨rfl, rfl, List.nodup_nil⟩

theorem reports_folder (parent : Path) (name : String) :
    s.Reports [.folder parent name] (.ofFolder (parent / s.folderName name)) := ⟨rfl, rfl, List.nodup_nil⟩

theorem reports_file (folder : Path) (f : File) (keys : List String) :
    s.Reports [.file folder f] (.ofFile (folder / s.fileName f) keys) := by
  refine ⟨rfl, rfl, ?_⟩
  unfold Report.ofFile
  split <;> simp

/-- What an outline asks for. -/
def plan (o : Outline) : List Task := s.planFolders s.outputRoot o.folders

end Settings

/-! ## Performing -/

namespace Generator

variable (g : Generator)

/-- Does one task. -/
def perform : Task → Job Report
  | .folder parent name => do
    let path ← g.makeFolder parent name
    return .ofFolder path
  | .file folder f => g.makeFile folder f

/-- Does tasks from the left, up to the first fault. -/
def performAll : List Task → Job Report
  | [] => return {}
  | t :: ts => do
    let first ← g.perform t
    let others ← performAll ts
    return first.extend others

theorem makeFolder_yields (parent : Path) (name : String) :
    (g.makeFolder parent name).Yields (· = parent / g.settings.folderName name) := by
  refine (Job.yields_true _).bind fun _ _ => ?_
  split
  · exact Job.yields_pure rfl
  · exact (Job.yields_true _).bind fun _ _ => (Job.yields_true _).bind fun _ _ => Job.yields_pure rfl

theorem makeFile_yields (folder : Path) (f : File) :
    (g.makeFile folder f).Yields (g.settings.Reports [.file folder f]) := by
  unfold makeFile
  dsimp only
  split
  · exact Job.yields_pure (g.settings.reports_file folder f _)
  · refine (Job.yields_true _).bind fun _ _ => (Job.yields_true _).bind fun _ _ => ?_
    exact (Job.yields_true _).bind fun _ _ => Job.yields_pure (g.settings.reports_file folder f _)

theorem perform_yields (t : Task) : (g.perform t).Yields (g.settings.Reports [t]) := by
  cases t with
  | folder parent name =>
    refine (g.makeFolder_yields parent name).bind fun path hpath => Job.yields_pure ?_
    rw [hpath]
    exact g.settings.reports_folder parent name
  | file folder f => exact g.makeFile_yields folder f

/-- **What has been performed is reported**, in the order of the tasks. -/
theorem performAll_yields (ts : List Task) : (g.performAll ts).Yields (g.settings.Reports ts) := by
  induction ts with
  | nil => exact Job.yields_pure g.settings.reports_nil
  | cons t ts ih =>
    exact (g.perform_yields t).bind fun r hr => ih.bind fun r' hr' => Job.yields_pure (hr.extend hr')

/-- Tasks are performed with success if the first one is, and the others after it. -/
theorem exec_performAll_cons_eq_ok_iff {t : Task} {ts : List Task} {s s' : RunState} {r : Report} :
    Job.exec (g.performAll (t :: ts)) s = (.ok r, s') ↔
      ∃ first s₁ others, Job.exec (g.perform t) s = (.ok first, s₁) ∧
        Job.exec (g.performAll ts) s₁ = (.ok others, s') ∧ r = first.extend others := by
  constructor
  · intro h
    obtain ⟨first, s₁, hfirst, hrest⟩ := Job.exec_bind_eq_ok h
    obtain ⟨others, s₂, hothers, hlast⟩ := Job.exec_bind_eq_ok hrest
    obtain ⟨rfl, rfl⟩ := Job.exec_pure_eq_ok hlast
    exact ⟨first, s₁, others, hfirst, hothers, rfl⟩
  · rintro ⟨first, s₁, others, hfirst, hothers, rfl⟩
    rw [performAll, Job.exec_bind, hfirst]
    dsimp only
    rw [Job.exec_bind, hothers]
    rfl

/-- Performing may pause anywhere. -/
theorem performAll_append (ts us : List Task) :
    g.performAll (ts ++ us) = do
      let first ← g.performAll ts
      let others ← g.performAll us
      return first.extend others := by
  induction ts with
  | nil =>
    have hempty : ∀ r, g.settings.Reports us r → (pure r : Job Report) = pure (({} : Report).extend r) :=
      fun r hr => by rw [Report.empty_extend r hr.proper]
    simp only [List.nil_append, performAll, pure_bind]
    rw [← Job.bind_congr (g.performAll_yields us) hempty, bind_pure]
  | cons t ts ih =>
    -- both sides do the same; only the reports are put together in another grouping
    simp only [List.cons_append, performAll, ih, bind_assoc, pure_bind]
    congr 1
    funext r
    refine Job.bind_congr (g.performAll_yields ts) fun r' hr' => ?_
    congr 1
    funext r''
    rw [Report.extend_assoc r r'' hr'.proper]

/-- A run that succeeds with several tasks does so with the first of them, and then with the others. -/
theorem exec_performAll_append_eq_ok {ts us : List Task} {st st' : RunState} {r : Report}
    (h : Job.exec (g.performAll (ts ++ us)) st = (.ok r, st')) :
    ∃ first mid others, Job.exec (g.performAll ts) st = (.ok first, mid) ∧
      Job.exec (g.performAll us) mid = (.ok others, st') ∧ r = first.extend others := by
  rw [performAll_append] at h
  obtain ⟨first, mid, hfirst, hrest⟩ := Job.exec_bind_eq_ok h
  obtain ⟨others, s₂, hothers, hlast⟩ := Job.exec_bind_eq_ok hrest
  obtain ⟨rfl, rfl⟩ := Job.exec_pure_eq_ok hlast
  exact ⟨first, mid, others, hfirst, hothers, rfl⟩

theorem makeFiles_eq_performAll (folder : Path) (files : List File) :
    g.makeFiles folder files = g.performAll (files.map (.file folder)) := by
  induction files with
  | nil => rfl
  | cons f fs ih => simp only [makeFiles, List.map_cons, performAll, perform, ih]

mutual

/-- Making a folder is performing what it asks for. -/
theorem generateFolder_eq_performAll (parent : Path) : (f : Folder) →
    g.generateFolder parent f = g.performAll (g.settings.planFolder parent f)
  | .mk name files folders => by
    rw [generateFolder, Settings.planFolder, performAll, perform, bind_assoc]
    refine Job.bind_congr (g.makeFolder_yields parent name) fun path hpath => ?_
    -- the plan knows the path without making the folder
    rw [hpath, pure_bind, performAll_append, makeFiles_eq_performAll, generateFolders_eq_performAll]
    simp only [bind_assoc, pure_bind]
    refine Job.bind_congr (g.performAll_yields _) fun r hr => ?_
    congr 1
    funext r'
    rw [Report.extend_assoc _ r' hr.proper]

theorem generateFolders_eq_performAll (parent : Path) : (fs : List Folder) →
    g.generateFolders parent fs = g.performAll (g.settings.planFolders parent fs)
  | [] => by rw [generateFolders, Settings.planFolders, performAll]
  | f :: fs => by
    rw [generateFolders, Settings.planFolders, performAll_append, generateFolder_eq_performAll,
      generateFolders_eq_performAll]

end

/-- **Generating an outline is performing its plan.** -/
theorem generate_eq_performAll (o : Outline) : g.generate o = g.performAll (g.settings.plan o) :=
  g.generateFolders_eq_performAll g.settings.outputRoot o.folders

end Generator

/-! ## Walks -/

namespace Settings

variable (s : Settings)

/-- The path of the folder that names lead to. -/
def folderPath (names : List String) : Path := s.outputRoot.below (names.map s.folderName)

theorem folderPath_concat (names : List String) (name : String) :
    s.folderPath (names ++ [name]) = s.folderPath names / s.folderName name := by
  rw [folderPath, List.map_append, List.map_singleton, Path.below_concat]
  rfl

/-- What a folder that is met on a walk asks for: itself and its files. -/
def tasksAt (p : List String × Folder) : List Task :=
  .folder (s.folderPath p.1.dropLast) p.2.name :: p.2.files.map (.file (s.folderPath p.1))

mutual

theorem planFolder_eq_flatMap_walk (above : List String) : (f : Folder) →
    s.planFolder (s.folderPath above) f = (Folder.walk above f).flatMap s.tasksAt
  | .mk name files folders => by
    rw [planFolder, Folder.walk, List.flatMap_cons, ← folderPath_concat,
      planFolders_eq_flatMap_walkAll (above ++ [name]) folders]
    simp [tasksAt, Folder.name, Folder.files]

theorem planFolders_eq_flatMap_walkAll (above : List String) : (fs : List Folder) →
    s.planFolders (s.folderPath above) fs = (Folder.walkAll above fs).flatMap s.tasksAt
  | [] => by rw [planFolders, Folder.walkAll_nil, List.flatMap_nil]
  | f :: fs => by
    rw [planFolders, Folder.walkAll_cons, List.flatMap_append, planFolder_eq_flatMap_walk above f,
      planFolders_eq_flatMap_walkAll above fs]

end

/-- **The plan follows the walk**: each folder comes where the walk meets it, with its files behind it. -/
theorem plan_eq_flatMap_walk (o : Outline) : s.plan o = o.walk.flatMap s.tasksAt :=
  s.planFolders_eq_flatMap_walkAll [] o.folders

/-- The paths of the files of a folder that is met on a walk. -/
def filesAt (p : List String × Folder) : List Path := p.2.files.map fun f => s.folderPath p.1 / s.fileName f

/-- The files that an outline asks for, each with its path, in the order of the walk. -/
def filesOf (o : Outline) : List (Path × File) :=
  o.walk.flatMap fun p => p.2.files.map fun f => (s.folderPath p.1 / s.fileName f, f)

theorem map_fst_filesOf (o : Outline) : (s.filesOf o).map Prod.fst = o.walk.flatMap s.filesAt := by
  rw [filesOf, List.map_flatMap]
  refine List.flatMap_congr fun p _ => ?_
  rw [List.map_map]
  rfl

theorem filterMap_fileOf?_plan (o : Outline) : (s.plan o).filterMap s.fileOf? = s.filesOf o := by
  have hat : ∀ p, (s.tasksAt p).filterMap s.fileOf? =
      p.2.files.map fun f => (s.folderPath p.1 / s.fileName f, f) := by
    intro p
    have hfile : (s.fileOf? ∘ Task.file (s.folderPath p.1)) =
        fun f => some (s.folderPath p.1 / s.fileName f, f) := rfl
    rw [tasksAt, List.filterMap_cons_none rfl, List.filterMap_map, hfile]
    exact congrFun List.filterMap_eq_map' p.2.files
  rw [plan_eq_flatMap_walk, List.filterMap_flatMap, filesOf]
  exact List.flatMap_congr fun p _ => hat p

theorem filterMap_folderOf?_plan (o : Outline) :
    (s.plan o).filterMap s.folderOf? = o.walk.map fun p => s.folderPath p.1 := by
  have hat : ∀ p ∈ o.walk, (s.tasksAt p).filterMap s.folderOf? = [s.folderPath p.1] := by
    intro p hp
    have hnone : p.2.files.filterMap (s.folderOf? ∘ Task.file (s.folderPath p.1)) = [] :=
      List.filterMap_eq_nil_iff.mpr fun _ _ => rfl
    have hself : s.folderOf? (.folder (s.folderPath p.1.dropLast) p.2.name) = some (s.folderPath p.1) := by
      rw [Folder.names_of_mem_walkAll o.folders hp, folderPath_concat]
      simp [folderOf?]
    rw [tasksAt, List.filterMap_cons_some hself, List.filterMap_map, hnone]
  rw [plan_eq_flatMap_walk, List.filterMap_flatMap, List.flatMap_congr hat, List.map_eq_flatMap]

end Settings

end Stencil
