import Stencil.Proofs.Run.Independence
import Stencil.Proofs.Run.Stop
import Stencil.Proofs.Run.Unresolved

/-!
# `Stencil.Proofs.Run.DryRun` — runs for show

## Contents
- **Disks.** A job `Keeps` the disk if it leaves it as it is, however it ends.
- **Reports.** A dry report foretells a real one (`Report.Foretells`): the same folders, the same files, and of the keys
  of each file the first ones. So it is with the reports of a dry run and a real run of the same tasks
  (`foretells_of_performAll`).
- **Whole runs.** A whole dry run keeps the disk (`keeps_run`). Where a real run has an end, a dry run has one, with the
  same counts (`exec_run_dry`).
-/

namespace Stencil

open Text

/-! ## Disks -/

namespace Job

variable {α β : Type} {job : Job α} {next : α → Job β} {p : α → Prop}

/-- A job that leaves the disk as it is, whether it ends with a result or with a fault. -/
def Keeps (job : Job α) : Prop := ∀ s, (exec job s).2.disk = s.disk

theorem Asks.keeps (h : Asks job) : Keeps job := by
  obtain ⟨answer, hanswer⟩ := h
  intro s
  rw [hanswer]

theorem keeps_printAll (es : List Console.Event) : Keeps (printAll es) := fun _ => rfl

theorem Keeps.attempt (h : Keeps job) : Keeps (attempt job) := h

/-- An attempt that comes to a result comes to one that the job can have. -/
theorem Yields.attempt (h : Yields job p) : Yields (attempt job) fun result => ∀ a, result = .ok a → p a := by
  intro s result s' hresult a ha
  rw [exec_attempt, Prod.mk.injEq, Except.ok.injEq] at hresult
  exact h s a s' (Prod.ext (hresult.1.trans ha) hresult.2)

/-- What follows a job has to keep the disk only for the results that the job can have. -/
theorem Keeps.bind_of_yields (h : Keeps job) (hp : Yields job p) (hn : ∀ a, p a → Keeps (next a)) :
    Keeps (job >>= next) := by
  intro s
  have hdisk := h s
  rw [exec_bind]
  split
  · next a s₁ ha =>
    rw [ha] at hdisk
    rw [hn a (hp s a s₁ ha), hdisk]
  · next f s₁ hf => rwa [hf] at hdisk

theorem Keeps.bind (h : Keeps job) (hn : ∀ a, Keeps (next a)) : Keeps (job >>= next) :=
  h.bind_of_yields (yields_true job) fun a _ => hn a

end Job

/-! ## Reports -/

/-- The same run, for show. -/
def Generator.dry (g : Generator) : Generator := { g with settings := { g.settings with dryRun := true } }

theorem Generator.dry_eq_self {g : Generator} (h : g.settings.dryRun = true) : g.dry = g := by
  rw [dry, ← h]

/-- A dry report that foretells a real one: both list the same folders and the same files, and the keys that the dry
    one has for a file are the first of those that the real one has. -/
structure Report.Foretells (dry real : Report) : Prop where
  folders : real.folders = dry.folders
  files : real.files = dry.files
  unresolved : ∀ k ks, Entries.get? k dry.unresolved = some ks →
    ∃ ks', Entries.get? k real.unresolved = some ks' ∧ ks <+: ks'

namespace Generator

variable {g : Generator} {o : Outline} {ts : List Task} {s s' : RunState} {r d : Report}

/-- For show, the same is planned. -/
theorem plan_dry (g : Generator) (o : Outline) : g.dry.settings.plan o = g.settings.plan o := by
  rw [Settings.plan_eq_flatMap_walk, Settings.plan_eq_flatMap_walk]
  rfl

/-- **What is performed for show foretells what is performed.** An entry of the dry report is about a file with keys in
    its name. The real report lists that file as well, so it has an entry for it; and whichever file of this path the
    entry comes from, it begins with these keys. -/
theorem foretells_of_performAll {s₁ s₁' : RunState} (hdry : Job.exec (g.dry.performAll ts) s₁ = (.ok d, s₁'))
    (hreal : Job.exec (g.performAll ts) s = (.ok r, s')) : d.Foretells r := by
  have hd := g.dry.performAll_yields ts _ _ _ hdry
  have hr := g.performAll_yields ts _ _ _ hreal
  have hfiles : r.files = d.files := hr.files.trans hd.files.symm
  refine ⟨hr.folders.trans hd.folders.symm, hfiles, fun k ks hk => ?_⟩
  obtain ⟨p, hp, rfl, hkeys, -, hexact⟩ := (g.dry.performAll_accounts ts _ _ _ hdry).entry k ks hk
  obtain rfl := hexact rfl
  have haccounts := g.performAll_accounts ts _ _ _ hreal
  obtain ⟨ks', hks'⟩ := Option.ne_none_iff_exists'.mp (haccounts.named p (hfiles ▸ hp) hkeys)
  obtain ⟨q, -, htext, -, hprefix, -⟩ := haccounts.entry _ _ hks'
  obtain rfl := Path.text_inj.mp htext
  exact ⟨ks', hks', hprefix⟩

/-- **A dry run always succeeds and keeps the disk**, and what it reports does not depend on the disk. -/
theorem exec_generate_dry (g : Generator) (o : Outline) :
    ∃ d, ∀ s, ∃ s', Job.exec (g.dry.generate o) s = (.ok d, s') ∧ s'.disk = s.disk := by
  refine ⟨.collect ((g.dry.settings.plan o).map (g.dry.resultOf {})), fun s => ?_⟩
  rw [generate_eq_performAll]
  obtain ⟨d, s', hrun, hdisk⟩ := exec_performAll_of_dryRun (g := g.dry) (s := s) rfl (g.dry.settings.plan o)
  rw [← results_of_dryRun rfl {} hrun]
  exact ⟨s', hrun, hdisk⟩

theorem foretells_of_generate {s₁ s₁' : RunState} (hdry : Job.exec (g.dry.generate o) s₁ = (.ok d, s₁'))
    (hreal : Job.exec (g.generate o) s = (.ok r, s')) : d.Foretells r := by
  rw [generate_eq_performAll, plan_dry] at hdry
  rw [generate_eq_performAll] at hreal
  exact foretells_of_performAll hdry hreal

/-! ## Whole runs -/

theorem keeps_generate (g : Generator) (o : Outline) : (g.dry.generate o).Keeps := by
  intro s
  obtain ⟨d, hd⟩ := g.exec_generate_dry o
  obtain ⟨s', hrun, hdisk⟩ := hd s
  rw [hrun]
  exact hdisk

theorem keeps_produce (g : Generator) (o : Outline) : (g.dry.produce o).Keeps := by
  refine (Job.keeps_printAll _).bind fun _ => (Job.keeps_printAll _).bind fun _ => ?_
  refine (g.keeps_generate o).bind fun r => (Job.keeps_printAll _).bind fun _ => (Job.keeps_printAll _).bind fun _ => ?_
  exact (Job.asks_pure none).keeps.bind fun _ => (Job.asks_pure _).keeps

/-- **A whole dry run keeps the disk**, however it ends. -/
theorem keeps_run (g : Generator) : g.dry.run.Keeps := by
  rw [run_eq]
  refine (Job.keeps_printAll _).bind fun _ => (Job.asks_readOutline _).keeps.bind fun o => ?_
  exact (Job.keeps_printAll _).bind fun _ => g.keeps_produce o

theorem generate_counts (g : Generator) (o : Outline) :
    (g.generate o).Yields fun r => r.folders.length = o.folderCount ∧ r.files.length = o.fileCount := by
  intro s r s' h
  rw [generate_eq_performAll] at h
  have hr := g.performAll_yields _ _ _ _ h
  constructor
  · rw [hr.folders, Settings.filterMap_folderOf?_plan, List.length_map]
    rfl
  · rw [hr.files, Settings.filterMap_fileOf?_plan, List.length_map, Settings.length_filesOf]

/-- A whole run counts the folders and the files of the outline, and tells which of its lines were dropped. -/
theorem produce_yields (g : Generator) (o : Outline) :
    (g.produce o).Yields fun m => m.folders = o.folderCount ∧ m.files = o.fileCount ∧ m.dropped = o.dropped := by
  refine (Job.yields_true _).bind fun _ _ => (Job.yields_true _).bind fun _ _ => ?_
  refine (g.generate_counts o).bind fun r hr => (Job.yields_true _).bind fun _ _ => ?_
  refine (Job.yields_true _).bind fun _ _ => ?_
  dsimp only
  split <;> exact (Job.yields_true _).bind fun _ _ => Job.yields_pure ⟨hr.1, hr.2, rfl⟩

theorem exec_produce_dry (g : Generator) (o : Outline) (s : RunState) :
    ∃ m s', Job.exec (g.dry.produce o) s = (.ok m, s') := by
  obtain ⟨d, hd⟩ := g.exec_generate_dry o
  obtain ⟨s₁, hrun, -⟩ := hd { s with
    printed := s.printed ++ o.dropped.map dropWarning ++ Console.stepHeader 2 "GENERATE" }
  unfold produce
  simp only [Job.exec_bind, Job.exec_printAll, hrun]
  exact ⟨_, _, rfl⟩

/-- **Where a real run has an end, so has a dry run**, with the same counts and the same dropped lines. -/
theorem exec_run_dry {real : Summary} (h : Job.exec g.run s = (.ok real, s')) :
    ∃ dry s'', Job.exec g.dry.run s = (.ok dry, s'') ∧ dry.folders = real.folders ∧ dry.files = real.files ∧
      dry.dropped = real.dropped := by
  rw [run_eq] at h
  obtain ⟨_, s₁, hheader, h⟩ := Job.exec_bind_eq_ok h
  obtain ⟨o, s₂, hread, h⟩ := Job.exec_bind_eq_ok h
  obtain ⟨_, s₃, htree, hproduce⟩ := Job.exec_bind_eq_ok h
  obtain ⟨hfolders, hfiles, hdropped⟩ := g.produce_yields o _ _ _ hproduce
  obtain ⟨dry, s'', hdry⟩ := g.exec_produce_dry o s₃
  obtain ⟨hfolders', hfiles', hdropped'⟩ := g.dry.produce_yields o _ _ _ hdry
  refine ⟨dry, s'', ?_, hfolders'.trans hfolders.symm, hfiles'.trans hfiles.symm, hdropped'.trans hdropped.symm⟩
  -- up to the generation both do the same
  have hread' : Job.exec (Job.readOutline g.dry.settings.inputPath.text) s₁ = (.ok o, s₂) := hread
  have htree' : Job.exec (Job.printAll
      (if g.dry.quiet then [] else [.tree (o.labels g.dry.settings.inputPath.text)])) s₂ = (.ok (), s₃) := htree
  rw [run_eq]
  simp only [Job.exec_bind, hheader, hread', htree', hdry]

end Generator

end Stencil
