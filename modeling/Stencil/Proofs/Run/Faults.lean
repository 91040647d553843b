import Stencil.Proofs.Run.Stop

/-!
# `Stencil.Proofs.Run.Faults` — the faults of a run

## Contents
- **Raising.** `Job.Raises` says what holds of every fault with which a job can end. Jobs that follow each other raise
  what each of them raises.
- **Faults.** `Fault.IsOfRun` lists the faults that come from the disk, the outline, the generation and the console.
- **Acts.** An act ends with no other faults, and so no part of work has stopped with another one.
- **Runs.** A generation in whatever order, the manifest and so a whole run on whatever host end with no other faults
  (`raises_runOn`).
-/

namespace Stencil

open Text

/-! ## Raising -/

namespace Job

variable {α β : Type} {job : Job α} {next : α → Job β} {p : Fault → Prop} {fault : Refusal → Fault}

/-- Every fault of a job has a property. -/
def Raises (job : Job α) (p : Fault → Prop) : Prop := ∀ s f s', exec job s = (.error f, s') → p f

theorem raises_pure (a : α) : Raises (pure a) p := by
  intro s f s' h
  cases h

theorem raises_throw {f : Fault} (h : p f) : Raises (throw f : Job α) p := by
  intro s f' s' hf
  cases hf
  exact h

theorem raises_printAll (es : List Console.Event) : Raises (printAll es) p := by
  intro s f s' h
  cases h

theorem raises_attempt (job : Job α) : Raises (attempt job) p := by
  intro s f s' h
  cases h

/-- What an attempt ends with is the fault of the job. -/
theorem Raises.attempt (h : Raises job p) : Yields (attempt job) fun result => ∀ f, result = .error f → p f := by
  intro s result s' hresult f hf
  rw [exec_attempt, Prod.mk.injEq, Except.ok.injEq] at hresult
  exact h s f s' (Prod.ext (hresult.1.trans hf) hresult.2)

theorem Raises.bind (h : Raises job p) (hn : ∀ a, Raises (next a) p) : Raises (job >>= next) p := by
  intro s f s' hf
  rcases exec_bind_eq_error hf with hjob | ⟨a, s₁, -, hnext⟩
  · exact h s f s' hjob
  · exact hn a s₁ f s' hnext

theorem raises_ask {question : FileSystem → Except Refusal α}
    (h : ∀ disk r, question disk = .error r → p (fault r)) : Raises (ask question fault) p := by
  intro s f s' hf
  obtain ⟨-, r, hr, rfl⟩ := exec_ask_eq_error hf
  exact h s.disk r hr

theorem raises_makeFolder {path : Path} {reuse : Bool} (h : ∀ r, p (fault r)) :
    Raises (makeFolder path reuse fault) p := by
  intro s f s' hf
  obtain ⟨-, r, -, rfl⟩ := exec_makeFolder_eq_error hf
  exact h r

theorem raises_readText {path : Path} (h : ∀ r, p (fault r)) (hu : ∀ u, p (.undecodable u)) :
    Raises (readText path fault) p := by
  intro s f s' hf
  obtain ⟨-, ⟨r, -, rfl⟩ | ⟨-, u, -, -, rfl⟩⟩ := exec_readText_eq_error hf
  · exact h r
  · exact hu u

theorem raises_writeText {path : Path} {text : String} (h : ∀ r, p (fault r)) :
    Raises (writeText path text fault) p := by
  intro s f s' hf
  obtain ⟨-, r, -, rfl⟩ := exec_writeText_eq_error hf
  exact h r

end Job

/-! ## Faults -/

/-- The faults with which a whole run can end. -/
inductive Fault.IsOfRun : Fault → Prop
  | system (cause : Cause) (path : Path) : IsOfRun (.system cause path)
  | nullCharacter : IsOfRun .nullCharacter
  | undecodable (u : Utf8.Undecodable) : IsOfRun (.undecodable u)
  | unwritable (u : CodePoints.Unwritable) : IsOfRun (.unwritable u)
  | outlineMissing (path : String) : IsOfRun (.outlineMissing path)
  | generation (action : Action) (path : Path) (cause : Cause) : IsOfRun (.generation action path cause)
  | tooManyLevels : IsOfRun .tooManyLevels
  | markup (message : String) : IsOfRun (.markup message)

theorem Fault.isOfRun_refused (r : Refusal) (path : Path) : (refused r path).IsOfRun := by
  cases r with
  | cause c => exact .system c path
  | nullCharacter => exact .nullCharacter

/-! ## The outline and the manifest -/

namespace Job

/-- To make a folder with those on the way to it, by recursion on how many they can be. -/
theorem raises_makeFoldersTo (fuel : Nat) (path : Path) : Raises (makeFoldersTo fuel path) Fault.IsOfRun := by
  have hmake (path : Path) : Raises (makeFolder path true (Fault.refused · path)) Fault.IsOfRun :=
    raises_makeFolder fun r => Fault.isOfRun_refused r path
  induction fuel generalizing path with
  | zero => exact hmake path
  | succ fuel ih =>
    have hget : Raises (get : Job RunState) Fault.IsOfRun := fun s f s' h => by cases h
    refine hget.bind fun s => ?_
    split
    · split
      · exact raises_throw (.system .notFound path)
      · exact (ih path.parent).bind fun _ => hmake path
    · exact hmake path

theorem raises_saveText (path : Path) (text : String) : Raises (saveText path text) Fault.IsOfRun :=
  (raises_makeFoldersTo _ _).bind fun _ => raises_writeText fun r => Fault.isOfRun_refused r path

theorem raises_writeManifest (m : Manifest) (path : Path) : Raises (writeManifest m path) Fault.IsOfRun := by
  unfold writeManifest
  split
  · exact raises_throw .tooManyLevels
  · exact (raises_saveText _ _).bind fun _ => raises_pure _

theorem raises_readOutline (path : String) : Raises (readOutline path) Fault.IsOfRun := by
  refine (raises_ask fun _ r _ => Fault.isOfRun_refused r _).bind fun found => ?_
  split
  · exact (raises_readText (fun r => Fault.isOfRun_refused r _) .undecodable).bind fun text => raises_pure _
  · exact raises_throw (.outlineMissing path)

end Job

/-! ## Acts -/

namespace Job

theorem raises_print (e : Console.Event) : Raises (print e) Fault.IsOfRun := raises_printAll [e]

theorem raises_requirePath (folder : Path) (name : CodePoints) : Raises (requirePath folder name) Fault.IsOfRun := by
  intro s f s' h
  obtain ⟨-, u, rfl⟩ := exec_requirePath_eq_error h
  exact .unwritable u

theorem raises_openFile {path : Path} {fault : Refusal → Fault} {p : Fault → Prop} (h : ∀ r, p (fault r)) :
    Raises (openFile path fault) p := by
  intro s f s' hf
  rw [exec_openFile] at hf
  split at hf
  · cases hf
  · cases hf
    exact h _

theorem raises_overwrite (l : Location) (text : String) : Raises (overwrite l text) Fault.IsOfRun := by
  intro s f s' h
  cases h

end Job

theorem Fault.isOfRun_duringGeneration (action : Action) (r : Refusal) (path : Path) :
    (duringGeneration action r path).IsOfRun := by
  cases r with
  | cause c => exact .generation action path c
  | nullCharacter => exact .nullCharacter

namespace Generator

variable {g : Generator}

theorem raises_report (p : Console.Progress) : (g.report p).Raises Fault.IsOfRun := by
  unfold report
  split
  · exact Job.raises_pure ()
  · exact Job.raises_print _

theorem raises_actOnFolder {parent : Path} {name : String} (stage : Stage (.folder parent name)) :
    (g.actOnFolder parent name stage).Raises Fault.IsOfRun := by
  cases stage with
  | new =>
    refine (raises_report _).bind fun _ => ?_
    split <;> exact Job.raises_pure _
  | announced =>
    have hrequire : (g.requireFolder parent name).Raises Fault.IsOfRun := by
      unfold requireFolder
      split
      · exact Job.raises_pure ()
      · exact Job.raises_requirePath _ _
    refine hrequire.bind fun _ => (Job.raises_makeFolder fun r => ?_).bind fun _ => Job.raises_pure _
    exact Fault.isOfRun_duringGeneration _ r _
  | made r | stopped f => exact Job.raises_pure _

theorem raises_actOnFile {folder : Path} {f : File} (stage : Stage (.file folder f)) :
    (g.actOnFile folder f stage).Raises Fault.IsOfRun := by
  cases stage with
  | new =>
    unfold actOnFile
    dsimp only
    split
    · exact Job.raises_pure _
    · split
      · exact Job.raises_pure _
      · exact (raises_report _).bind fun _ => Job.raises_pure _
  | announced =>
    refine (Job.raises_readText (fun r => ?_) .undecodable).bind fun body => Job.raises_pure _
    exact Fault.isOfRun_duringGeneration _ r _
  | read body =>
    have hrequire : (g.requireName folder f).Raises Fault.IsOfRun := by
      unfold requireName
      split
      · exact Job.raises_pure ()
      · exact Job.raises_requirePath _ _
    refine hrequire.bind fun _ => (Job.raises_openFile fun r => ?_).bind fun l => Job.raises_pure _
    exact Fault.isOfRun_duringGeneration _ r _
  | opened body l =>
    have hrequire : (g.requireText f body).Raises Fault.IsOfRun := by
      unfold requireText
      split
      · exact Job.raises_pure ()
      · split
        · exact Job.raises_pure ()
        · exact Job.raises_throw (.unwritable _)
    exact hrequire.bind fun _ => (Job.raises_overwrite _ _).bind fun _ => Job.raises_pure _
  | made r | stopped f => exact Job.raises_pure _

theorem raises_act (t : Task) (stage : Stage t) : (g.act t stage).Raises Fault.IsOfRun := by
  cases t with
  | folder parent name => exact raises_actOnFolder stage
  | file folder f => exact raises_actOnFile stage

/-- What an act comes to has stopped only if the act ends with a fault. -/
theorem exec_act_eq_error {t : Task} {stage stage' : Stage t} {s s' : RunState} {f : Fault} (hahead : stage.ahead ≠ 0)
    (h : Job.exec (g.actOn ⟨t, stage⟩) s = (.ok ⟨t, stage'⟩, s')) (hf : stage'.fault? = some f) :
    Job.exec (g.act t stage) s = (.error f, s') := by
  rw [exec_actOn, Prod.mk.injEq, Except.ok.injEq, Part.mk.injEq, heq_eq_eq] at h
  obtain ⟨⟨-, rfl⟩, rfl⟩ := h
  rw [outcomeOf] at hf
  cases hact : Job.exec (g.act t stage) s with
  | mk result s₁ =>
    rw [hact] at hf
    cases result with
    | ok stage₁ =>
      rw [(act_yields hahead s _ _ hact).2] at hf
      cases hf
    | error f₁ =>
      cases hf
      rfl

/-- **No part has stopped with another fault.** -/
theorem Steps.isOfRun {w w' : Work} {s s' : RunState} (h : g.Steps w s w' s') (hw : ∀ f ∈ w.faults, f.IsOfRun) :
    ∀ f ∈ w'.faults, f.IsOfRun := by
  refine h.keeps (p := fun w₁ _ => ∀ f ∈ w₁.faults, f.IsOfRun) hw fun w₁ s₁ w₂ s₂ hw₁ hstep f hf => ?_
  cases hstep with
  | mk hahead hturn hact =>
    -- the fault is that of the part which has taken its turn, or was there before
    obtain ⟨p, hp, hpf⟩ := List.mem_filterMap.mp hf
    rcases hturn.of_mem hp with rfl | hold
    · exact raises_act _ _ _ _ _ (exec_act_eq_error hahead hact hpf)
    · exact hw₁ f (List.mem_filterMap.mpr ⟨p, hold, hpf⟩)

end Generator

/-! ## Runs -/

theorem Host.raises_display (host : Host) (e : Console.Event) : (host.display e).Raises Fault.IsOfRun := by
  unfold display
  split
  · exact Job.raises_print e
  · exact Job.raises_throw (.markup _)

theorem Host.raises_displayAll (host : Host) (es : List Console.Event) : (host.displayAll es).Raises Fault.IsOfRun := by
  induction es with
  | nil => exact Job.raises_pure ()
  | cons e es ih => exact (host.raises_display e).bind fun _ => ih

namespace Generator

theorem raises_generateBy (σ : Scheduler) (g : Generator) (o : Outline) :
    (g.generateBy σ o).Raises Fault.IsOfRun := by
  intro s f s' h
  obtain ⟨w, hsteps, hf, -⟩ := exec_generateBy_eq_error h
  have hnone : (g.settings.work o).faults = [] := Work.faults_of_isNew (g.settings.isNew_work o)
  exact hsteps.isOfRun (by simp [hnone]) f hf

variable (host : Host) (g : Generator)

theorem raises_displayOutline (o : Outline) : (g.displayOutline host o).Raises Fault.IsOfRun := by
  unfold displayOutline
  split
  · exact Job.raises_pure ()
  · exact host.raises_display _

theorem raises_produceOn (o : Outline) : (g.produceOn host o).Raises Fault.IsOfRun := by
  refine (Job.raises_printAll _).bind fun _ => (Job.raises_printAll _).bind fun _ => ?_
  refine (raises_generateBy host.scheduler g o).bind fun r => ?_
  refine (host.raises_displayAll _).bind fun _ => (Job.raises_printAll _).bind fun _ => ?_
  dsimp only
  split
  · exact (Job.raises_pure none).bind fun _ => Job.raises_pure _
  · rw [map_eq_pure_bind]
    exact ((Job.raises_writeManifest _ _).bind fun _ => Job.raises_pure _).bind fun _ => Job.raises_pure _

/-- **A whole run** ends, if not with a result, with a fault of the disk, the outline, the generation or the console. -/
theorem raises_runOn : (g.runOn host).Raises Fault.IsOfRun := by
  refine (Job.raises_printAll _).bind fun _ => (Job.raises_readOutline _).bind fun o => ?_
  exact (g.raises_displayOutline host o).bind fun _ => g.raises_produceOn host o

end Generator

end Stencil
