import Stencil.Proofs.Run.Makes
import Stencil.Proofs.Run.InTurn
import Stencil.Run.Steps

/-!
# `Stencil.Proofs.Run.Stop` — how a task stops

## Contents
- **Faults of jobs.** What a job that ends with a fault has met, and what it leaves.
- **Refusals.** `Settings.Refuses` says what the system refuses a task, `Generator.Stops` how a task stops.
- **Runs.** A run in turn that stops has done the tasks before one at which it stops (`exec_performAll_eq_error`).
- **Whole runs.** A whole run stops where its generation stops (`exec_runOn_of_generateBy`).
- **Reported refusals.** What the system refuses is told with what was refused and where (`Stops.refusal`).
-/

namespace Stencil

open Text

/-! ## Faults of jobs -/

namespace Job

variable {s s' : RunState} {fault : Refusal → Fault} {f : Fault}

/-- Jobs that follow each other end with the fault of the first, or with that of the second where the first left
    off. -/
theorem exec_bind_eq_error {α β : Type} {job : Job α} {next : α → Job β}
    (h : exec (job >>= next) s = (.error f, s')) :
    exec job s = (.error f, s') ∨ ∃ a s₁, exec job s = (.ok a, s₁) ∧ exec (next a) s₁ = (.error f, s') := by
  rw [exec_bind] at h
  split at h
  · next a s₁ ha => exact .inr ⟨a, s₁, ha, h⟩
  · next f₁ s₁ ha =>
    cases h
    exact .inl ha

theorem exec_change_eq_error {operation : FileSystem → Except Refusal FileSystem}
    (h : exec (change operation fault) s = (.error f, s')) :
    s' = s ∧ ∃ r, operation s.disk = .error r ∧ f = fault r := by
  rw [exec_change] at h
  split at h
  · cases h
  · next r hr =>
    cases h
    exact ⟨rfl, r, hr, rfl⟩

/-- What has been refused has not changed the disk; the fault tells what refused to make the folder. -/
theorem exec_makeFolder_eq_error {path : Path} {reuse : Bool}
    (h : exec (makeFolder path reuse fault) s = (.error f, s')) :
    s' = s ∧ ∃ r, s.disk.makeFolder path = .error r ∧ f = fault r := by
  unfold makeFolder at h
  rcases exec_bind_eq_error h with hget | ⟨_, s₁, hget, h⟩
  · cases hget
  · cases hget
    dsimp only at h
    split at h
    · exact exec_change_eq_error h
    · next hnull =>
      cases h
      exact ⟨rfl, _, hnull, rfl⟩
    · next r hnot hr =>
      split at h
      · split at h
        · cases h
        · cases h
          exact ⟨rfl, r, hr, rfl⟩
        · next r' hholds =>
          -- the folder cannot be looked for where it cannot be made
          have hlocate := FileSystem.locate_eq_error_of_holdsFolder hholds
          cases h
          exact ⟨rfl, r', FileSystem.makeFolder_eq_error_of_locate hlocate, rfl⟩
      · cases h
        exact ⟨rfl, r, hr, rfl⟩

theorem exec_ask_eq_error {α : Type} {question : FileSystem → Except Refusal α}
    (h : exec (ask question fault) s = (.error f, s')) :
    s' = s ∧ ∃ r, question s.disk = .error r ∧ f = fault r := by
  rw [exec_ask] at h
  cases hq : question s.disk with
  | ok a => rw [hq] at h; cases h
  | error r =>
    rw [hq] at h
    cases h
    exact ⟨rfl, r, rfl, rfl⟩

/-- A text that cannot be read is that of a file that is refused or is no text. -/
theorem exec_readText_eq_error {path : Path} (h : exec (readText path fault) s = (.error f, s')) :
    s' = s ∧ ((∃ r, s.disk.readFile path = .error r ∧ f = fault r) ∨
      ∃ bytes u, s.disk.readFile path = .ok bytes ∧ Utf8.decode bytes = .error u ∧ f = .undecodable u) := by
  unfold readText at h
  rcases exec_bind_eq_error h with hask | ⟨bytes, s₁, hask, hdecode⟩
  · obtain ⟨hsame, hrefused⟩ := exec_ask_eq_error hask
    exact ⟨hsame, .inl hrefused⟩
  · obtain ⟨hread, hsame⟩ := exec_ask_eq_ok hask
    split at hdecode
    · cases hdecode
    · next u hu =>
      cases hdecode
      exact ⟨hsame, .inr ⟨bytes, u, hread, hu, rfl⟩⟩

theorem exec_writeText_eq_error {path : Path} {text : String}
    (h : exec (writeText path text fault) s = (.error f, s')) :
    s' = s ∧ ∃ r, s.disk.writeFile path (Utf8.encode text.toList) = .error r ∧ f = fault r :=
  exec_change_eq_error h

theorem exec_requirePath_eq_error {folder : Path} {name : CodePoints}
    (h : exec (requirePath folder name) s = (.error f, s')) : s' = s ∧ ∃ u, f = .unwritable u := by
  unfold requirePath at h
  split at h
  · cases h
  · next u hu =>
    cases h
    exact ⟨rfl, u, rfl⟩

end Job

/-! ## Refusals -/

namespace Settings

/-- What the system refuses a task on a disk: an action at a path. -/
inductive Refuses (s : Settings) (fs : FileSystem) : Task → Action → Path → Refusal → Prop
  | folder {parent : Path} {name : String} {r : Refusal}
      (h : fs.makeFolder (parent / s.folderName name) = .error r) :
      Refuses s fs (.folder parent name) .createFolder (parent / s.folderName name) r
  | template {folder : Path} {f : File} {r : Refusal} (hid : f.templateId ≠ "")
      (h : fs.readFile (s.templatePath f) = .error r) :
      Refuses s fs (.file folder f) .readTemplate (s.templatePath f) r
  | file {folder : Path} {f : File} {r : Refusal} {bytes : Bytes}
      (h : fs.writeFile (folder / s.fileName f) bytes = .error r) :
      Refuses s fs (.file folder f) .writeFile (folder / s.fileName f) r

end Settings

namespace Generator

variable {g : Generator} {s s' : RunState} {fault : Fault}

/-- How a task stops on a disk: with which fault, and what it leaves. -/
inductive Stops (g : Generator) : Task → FileSystem → Fault → FileSystem → Prop
  /-- The system refuses an action; nothing has changed. -/
  | refused {t : Task} {fs : FileSystem} {action : Action} {path : Path} {r : Refusal}
      (h : g.settings.Refuses fs t action path r) : Stops g t fs (.duringGeneration action r path) fs
  /-- The template is no text; nothing has changed. -/
  | undecodable {folder : Path} {f : File} {fs : FileSystem} {bytes : Bytes} {u : Utf8.Undecodable}
      (h : fs.readFile (g.settings.templatePath f) = .ok bytes) (hu : Utf8.decode bytes = .error u) :
      Stops g (.file folder f) fs (.undecodable u) fs
  /-- The true name makes no path; nothing has changed. -/
  | unwritableName {t : Task} {fs : FileSystem} {u : CodePoints.Unwritable} : Stops g t fs (.unwritable u) fs
  /-- No file can hold the true content; the file is left empty. -/
  | unwritableContent {folder : Path} {f : File} {fs fs' : FileSystem} {u : CodePoints.Unwritable}
      (h : fs.writeFile (folder / g.settings.fileName f) [] = .ok fs') :
      Stops g (.file folder f) fs (.unwritable u) fs'

theorem exec_report_eq_error {p : Console.Progress} : Job.exec (g.report p) s ≠ (.error fault, s') := by
  unfold report
  split <;> intro h <;> cases h

theorem exec_requireFolder_eq_error {parent : Path} {name : String}
    (h : Job.exec (g.requireFolder parent name) s = (.error fault, s')) : s' = s ∧ ∃ u, fault = .unwritable u := by
  unfold requireFolder at h
  split at h
  · cases h
  · exact Job.exec_requirePath_eq_error h

end Generator

/-! ## Whole runs -/

namespace Job

variable {α β : Type}

/-- A job that only asks: it prints nothing, changes nothing and looks at nothing but the disk. -/
def Asks (job : Job α) : Prop := ∃ answer : FileSystem → Except Fault α, ∀ s, exec job s = (answer s.disk, s)

theorem asks_pure (a : α) : Asks (pure a) := ⟨fun _ => .ok a, fun _ => rfl⟩

theorem asks_throw (f : Fault) : Asks (throw f : Job α) := ⟨fun _ => .error f, fun _ => rfl⟩

theorem asks_ask (question : FileSystem → Except Refusal α) (fault : Refusal → Fault) :
    Asks (ask question fault) := ⟨fun disk => (question disk).mapError fault, exec_ask question fault⟩

theorem Asks.bind {job : Job α} {next : α → Job β} (h : Asks job) (hn : ∀ a, Asks (next a)) :
    Asks (job >>= next) := by
  obtain ⟨answer, hanswer⟩ := h
  choose answers hanswers using hn
  refine ⟨fun disk => match answer disk with | .ok a => answers a disk | .error f => .error f, fun s => ?_⟩
  rw [exec_bind, hanswer]
  cases hcase : answer s.disk with
  | ok a => simp only [hcase, hanswers]
  | error f => simp only [hcase]

theorem asks_readText (path : Path) (fault : Refusal → Fault) : Asks (readText path fault) := by
  refine (asks_ask _ _).bind fun bytes => ?_
  split
  · exact asks_pure _
  · exact asks_throw _

theorem asks_readOutline (path : String) : Asks (readOutline path) := by
  refine (asks_ask _ _).bind fun found => ?_
  split
  · exact (asks_readText _ _).bind fun text => asks_pure _
  · exact asks_throw _

end Job

theorem Job.printAll_nil : Job.printAll [] = pure () := Job.exec_ext fun s => by simp

/-- A host that displays everything prints it. -/
theorem Host.displayAll_default (es : List Console.Event) : ({} : Host).displayAll es = Job.printAll es := by
  induction es with
  | nil => exact Job.printAll_nil.symm
  | cons e es ih =>
    rw [displayAll, ih]
    exact Job.exec_ext fun s => by simp [Job.exec_bind, display]

namespace Generator

variable {g : Generator} {s s' : RunState} {fault : Fault}

/-- What a whole run does with the outline that it has read and shown. -/
def produce (g : Generator) (o : Outline) : Job Summary := do
  Job.printAll (o.dropped.map dropWarning)
  Job.printAll (Console.stepHeader 2 "GENERATE")
  let report ← g.generate o
  Job.printAll (report.unresolved.map unresolvedWarning)
  Job.printAll (Console.stepHeader 3 "MANIFEST")
  let manifest ←
    if g.settings.dryRun then pure none
    else
      some <$> Job.writeManifest (Manifest.ofOutline g.settings o) g.settings.resolvedManifestPath
  return {
    folders := report.folders.length
    files := report.files.length
    dropped := o.dropped
    unresolved := report.unresolved
    manifest }

/-- A whole run on a host that makes everything in turn and displays everything: it reads the outline, prints it unless
    it is to be quiet, and goes on with it. -/
theorem run_eq : g.run = (do
      Job.printAll (Console.stepHeader 1 "PARSE")
      let o ← Job.readOutline g.settings.inputPath.text
      Job.printAll (if g.quiet then [] else [.tree (o.labels g.settings.inputPath.text)])
      g.produce o) := by
  have hproduce (o : Outline) : g.produceOn {} o = g.produce o := by
    rw [produceOn, produce, show ({} : Host).scheduler = .inTurn from rfl, generateBy_inTurn]
    simp only [Host.displayAll_default]
  have htree (o : Outline) : g.displayOutline {} o =
      Job.printAll (if g.quiet then [] else [.tree (o.labels g.settings.inputPath.text)]) := by
    unfold displayOutline
    cases g.quiet
    · rfl
    · exact Job.printAll_nil.symm
  simp only [run, runOn, htree, hproduce]

end Generator

/-! ## Reported refusals -/

/-- Whether a fault is a refusal of the system. -/
def Fault.isRefusal : Fault → Bool
  | .system _ _ => true
  | .generation _ _ _ => true
  | _ => false

namespace Generator

variable {g : Generator} {fault : Fault}

/-- A refusal at which a task stops is reported with what was refused and where. -/
theorem Stops.refusal {t : Task} {fs fs' : FileSystem} (h : g.Stops t fs fault fs')
    (hrefusal : fault.isRefusal = true) :
    ∃ action path cause, fault = .generation action path cause ∧
      g.settings.Refuses fs t action path (.cause cause) := by
  cases h with
  | @refused t fs action path r h =>
    cases r with
    | cause c => exact ⟨action, path, c, rfl, h⟩
    | nullCharacter => cases hrefusal
  | undecodable h hu => cases hrefusal
  | unwritableName => cases hrefusal
  | unwritableContent h => cases hrefusal

end Generator

end Stencil
