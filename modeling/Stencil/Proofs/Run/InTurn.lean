import Stencil.Proofs.FileSystem.Place
import Stencil.Proofs.Run.Turns

/-!
# `Stencil.Proofs.Run.InTurn` — one order of many

## Contents
- **Parts.** `Generator.rest` is what is left to do of a part, up to the first fault; an act brings it forward.
- **Work.** `Generator.finish` does the rest of work from the left. In work that is `InOrder`, a part has begun only if
  everything on its left has been made, and `finish` is what `Scheduler.inTurn` does with it.
- **Runs.** To generate in turn is to generate (`generateBy_inTurn`).
-/

namespace Stencil

open Text

namespace Job

variable {s : RunState} {path : Path} {fault : Refusal → Fault}

/-- To open a file either fails as it fails to write it, or leaves an empty file that can be written. -/
theorem exec_openFile_cases (path : Path) (fault : Refusal → Fault) (s : RunState) :
    (∃ f, exec (openFile path fault) s = (.error f, s) ∧ ∀ text, exec (writeText path text fault) s = (.error f, s)) ∨
      ∃ l s', exec (openFile path fault) s = (.ok l, s') ∧ exec (writeText path "" fault) s = (.ok (), s') ∧
        ∀ text, exec (writeText path text fault) s = exec (overwrite l text) s' := by
  rw [exec_openFile]
  cases hopen : s.disk.openFile path with
  | error r =>
    refine .inl ⟨fault r, rfl, fun text => ?_⟩
    rw [writeText, exec_change]
    simp only [FileSystem.writeFile_eq_error_of_openFile hopen]
  | ok result =>
    obtain ⟨disk, l⟩ := result
    obtain ⟨hreach, hfile, rfl, rfl⟩ := FileSystem.openFile_eq_ok hopen
    have hwrite (text : String) : exec (writeText path text fault) s =
        (.ok (), { s with disk := s.disk.put (s.disk.placeOf path) (.file (Utf8.encode text.toList)) }) := by
      rw [writeText, exec_change]
      simp only [FileSystem.writeFile_of_locate hreach hfile]
    refine .inr ⟨_, _, rfl, hwrite "", fun text => ?_⟩
    rw [hwrite, exec_overwrite, FileSystem.overwrite_put_nil (FileSystem.ne_nil_of_entryAt? hfile)]

/-- **To write a file is to open it and to overwrite it at once.** -/
theorem writeText_eq (path : Path) (text : String) (fault : Refusal → Fault) :
    writeText path text fault = (do overwrite (← openFile path fault) text) := by
  apply exec_ext
  intro s
  rw [exec_bind]
  rcases exec_openFile_cases path fault s with ⟨f, hopen, hwrite⟩ | ⟨l, s', hopen, -, hwrite⟩
  · rw [hopen, hwrite]
  · rw [hopen, hwrite]

theorem throw_bind {α β : Type} (f : Fault) (next : α → Job β) : (throw f >>= next) = throw f := rfl

/-- A file that is left empty has been opened. -/
theorem writeText_throw {α : Type} (path : Path) (fault : Refusal → Fault) (f : Fault) :
    (do writeText path "" fault; throw f : Job α) = (do let _ ← openFile path fault; throw f) := by
  apply exec_ext
  intro s
  rw [exec_bind, exec_bind]
  rcases exec_openFile_cases path fault s with ⟨f', hopen, hwrite⟩ | ⟨l, s', hopen, hwrite, -⟩
  · rw [hopen, hwrite]
  · rw [hopen, hwrite]

end Job

namespace Generator

variable (g : Generator)

/-! ## Parts -/

/-- Writes a file whose template has been read. -/
def writeFrom (folder : Path) (f : File) (body : String) : Job Report := do
  let path := folder / g.settings.fileName f
  let content := Placeholder.fill (g.settings.scopeOf f) body
  g.requireFile folder path f body
  Job.writeText path content (Fault.duringGeneration .writeFile · path)
  return .ofFile path (Placeholder.keys path.name ++ Placeholder.keys content)

/-- What is left to do of a folder. -/
def restOfFolder (parent : Path) (name : String) : Stage (.folder parent name) → Job Report
  | .new => g.perform (.folder parent name)
  | .announced => do
    let path := parent / g.settings.folderName name
    g.requireFolder parent name
    Job.makeFolder path g.settings.allowExisting (Fault.duringGeneration .createFolder · path)
    return .ofFolder path
  | .made r => return r
  | .stopped f => throw f

/-- What is left to do of a file. -/
def restOfFile (folder : Path) (f : File) : Stage (.file folder f) → Job Report
  | .new => g.perform (.file folder f)
  | .announced => do
    let template := g.settings.templatePath f
    let body ← Job.readText template (Fault.duringGeneration .readTemplate · template)
    g.writeFrom folder f body
  | .read body => g.writeFrom folder f body
  | .opened body l => do
    let path := folder / g.settings.fileName f
    let content := Placeholder.fill (g.settings.scopeOf f) body
    g.requireText f body
    Job.overwrite l content
    return .ofFile path (Placeholder.keys path.name ++ Placeholder.keys content)
  | .made r => return r
  | .stopped f => throw f

/-- What is left to do of a part. -/
def rest : (t : Task) → Stage t → Job Report
  | .folder parent name => g.restOfFolder parent name
  | .file folder f => g.restOfFile folder f

variable {g}

theorem rest_new (t : Task) : g.rest t .new = g.perform t := by cases t <;> rfl

theorem rest_made (t : Task) (r : Report) : g.rest t (.made r) = pure r := by cases t <;> rfl

/-- **To open a file and to write it is to write it at once.** -/
theorem writeFrom_eq (folder : Path) (f : File) (body : String) :
    g.writeFrom folder f body = (do
      let stage ← g.actOnFile folder f (.read body)
      g.restOfFile folder f stage) := by
  unfold writeFrom requireFile
  simp only [actOnFile, restOfFile, requireName, requireText, bind_assoc, pure_bind]
  cases hloose : g.loose.isEmpty with
  | true => simp only [if_true, pure_bind, Job.writeText_eq, bind_assoc]
  | false =>
    simp only [Bool.false_eq_true, if_false, bind_assoc, Job.requireContent]
    refine Job.bind_congr (Job.yields_true _) fun _ _ => ?_
    cases (Placeholder.fillPoints (g.value? f.parameters) body).unwritable? CodePoints.isHalf with
    | none => simp only [pure_bind, Job.writeText_eq, bind_assoc]
    | some u => simp only [bind_assoc, Job.throw_bind, Job.writeText_throw]

/-- **An act brings forward what is left to do.** -/
theorem rest_act {t : Task} {stage : Stage t} (h : stage.ahead ≠ 0) :
    g.rest t stage = (do g.rest t (← g.act t stage)) := by
  cases t with
  | folder parent name =>
    cases stage with
    | new =>
      simp only [rest, restOfFolder, act, actOnFolder, perform, makeFolder, bind_assoc]
      cases g.settings.dryRun <;> simp
    | announced => simp [rest, act, restOfFolder, actOnFolder]
    | made r | stopped f => exact absurd rfl h
  | file folder f =>
    cases stage with
    | new => 
      simp only [rest, restOfFile, act, actOnFile, perform, makeFile, template]
      cases g.settings.dryRun with
      | true => simp
      | false =>
        by_cases hid : f.templateId = "" 
        · simp [hid, writeFrom]
        · simp [hid, writeFrom]
    | announced => simp [rest, act, restOfFile, actOnFile]
    | read body => exact writeFrom_eq folder f body
    | opened body l => simp [rest, act, restOfFile, actOnFile]
    | made r | stopped f => exact absurd rfl h

/-! ## Work -/

variable (g) in
/-- Does the rest of work from the left, up to the first fault. -/
def finish : Work → Job Report
  | .nothing => return {}
  | .part p => g.rest p.task p.stage
  | .seq v w => do
    let first ← finish v
    let others ← finish w
    return first.extend others
  | .queue v w => do
    let first ← finish v
    let others ← finish w
    return first.extend others
  | .par v w => do
    let first ← finish v
    let others ← finish w
    return first.extend others

/-- Of what has been made, only the report is left. -/
theorem finish_of_isMade {w : Work} (h : w.isMade = true) : g.finish w = pure w.report := by
  induction w with
  | nothing => rfl
  | part p =>
    obtain ⟨t, stage⟩ := p
    have hmade : stage.report?.isSome = true := by simpa [Work.isMade, Work.parts] using h
    cases stage with
    | made r => exact rest_made t r
    | _ => cases hmade
  | seq v w ihv ihw | queue v w ihv ihw | par v w ihv ihw =>
    rw [Work.isMade, Work.parts, List.all_append, Bool.and_eq_true] at h
    simp only [finish, ihv h.1, ihw h.2, pure_bind, Work.report]

/-- **Of what has not begun, everything is to be performed.** -/
theorem finish_of_isNew {w : Work} (h : w.isNew = true) : g.finish w = g.performAll w.tasks := by
  induction w with
  | nothing => rfl
  | part p =>
    obtain ⟨t, stage⟩ := p
    have hnew : stage.isNew = true := by simpa [Work.isNew, Work.parts] using h
    cases stage with
    | new =>
      have hlast : ∀ r : Report, r.extend {} = r := fun r => by simp [Report.extend]
      simp only [finish, rest_new, Work.tasks, Work.parts, List.map_cons, List.map_nil, performAll, pure_bind, hlast,
        bind_pure]
    | _ => cases hnew
  | seq v w ihv ihw | queue v w ihv ihw | par v w ihv ihw =>
    rw [Work.isNew, Work.parts, List.all_append, Bool.and_eq_true] at h
    simp only [finish, ihv h.1, ihw h.2, Work.tasks, Work.parts, List.map_append, performAll_append]

end Generator

/-- A part has begun only if everything on its left has been made. -/
def Work.InOrder : Work → Prop
  | .nothing => True
  | .part _ => True
  | .seq v w => v.isMade = true ∧ w.InOrder ∨ v.InOrder ∧ w.isNew = true
  | .queue v w => v.isMade = true ∧ w.InOrder ∨ v.InOrder ∧ w.isNew = true
  | .par v w => v.isMade = true ∧ w.InOrder ∨ v.InOrder ∧ w.isNew = true

namespace Work

variable {w : Work}

theorem faults_of_isMade (h : w.isMade = true) : w.faults = [] := by
  rw [faults, List.filterMap_eq_nil_iff]
  exact fun p hp => Stage.fault?_of_report? (List.all_eq_true.mp h p hp)

theorem isOpen_of_isMade (h : w.isMade = true) : w.isOpen = false := by
  rw [isOpen, List.any_eq_false]
  intro p hp hopen
  have hmade : p.stage.report?.isSome = true := List.all_eq_true.mp h p hp
  have hzero := Stage.ahead_eq_zero_iff.mpr (.inl hmade)
  rw [Stage.ahead_of_isOpen hopen] at hzero
  cases hzero

theorem inOrder_of_isNew (h : w.isNew = true) : w.InOrder := by
  induction w with
  | nothing | part p => trivial
  | seq v w ihv ihw | queue v w ihv ihw | par v w ihv ihw =>
    rw [isNew, parts, List.all_append, Bool.and_eq_true] at h
    exact .inr ⟨ihv h.1, h.2⟩

end Work

namespace Generator

variable {g : Generator} {v v' w w' : Work} {s s' : RunState}

/-- What it means for work to be brought forward in order: either the rest of it is what is left to do, or its first
    fault is the one that has come up. -/
def BringsForward (g : Generator) (w : Work) (s : RunState) (w' : Work) (s' : RunState) : Prop :=
  (w'.faults = [] ∧ w'.InOrder ∧ Job.exec (g.finish w) s = Job.exec (g.finish w') s') ∨
    ∃ f, w'.faults = [f] ∧ w'.isOpen = false ∧ Job.exec (g.finish w) s = (.error f, s')

/-- **One part.** -/
theorem bringsForward_part {p : Part} (hgo : p.stage.ahead ≠ 0) (s : RunState) :
    ∃ s', Job.exec (g.actOn p) s = (.ok ⟨p.task, g.outcomeOf p s⟩, s') ∧
      g.BringsForward (.part p) s (.part ⟨p.task, g.outcomeOf p s⟩) s' := by
  refine ⟨_, exec_actOn p s, ?_⟩
  unfold BringsForward
  rw [finish, rest_act hgo, Job.exec_bind, outcomeOf]
  cases hact : Job.exec (g.act p.task p.stage) s with
  | mk result s' =>
    cases result with
    | error f => exact .inr ⟨f, rfl, rfl, rfl⟩
    | ok stage =>
      have hnone := (act_yields hgo s stage s' hact).2
      exact .inl ⟨by simp [Work.faults, Work.parts, hnone], trivial, rfl⟩

/-- What stands on the right has not begun. -/
theorem BringsForward.left (h : g.BringsForward v s v' s') (hnew : w.isNew = true) :
    g.BringsForward (.seq v w) s (.seq v' w) s' ∧ g.BringsForward (.queue v w) s (.queue v' w) s' ∧
      g.BringsForward (.par v w) s (.par v' w) s' := by
  have hfaults := Work.faults_of_isNew hnew
  have hopen := Work.isOpen_of_isNew hnew
  rcases h with ⟨hnone, horder, hrest⟩ | ⟨f, hone, hclosed, hrest⟩
  · have hboth : v'.faults ++ w.faults = [] := by rw [hnone, hfaults, List.append_nil]
    have hfinish : Job.exec (g.finish (.seq v w)) s = Job.exec (g.finish (.seq v' w)) s' := by
      rw [finish, finish, Job.exec_bind, hrest, ← Job.exec_bind]
    have hparts : (v'.parts ++ w.parts).filterMap (fun p => p.stage.fault?) = [] := by
      rw [List.filterMap_append]
      exact hboth
    exact ⟨.inl ⟨hparts, .inr ⟨horder, hnew⟩, hfinish⟩, .inl ⟨hparts, .inr ⟨horder, hnew⟩, hfinish⟩,
      .inl ⟨hparts, .inr ⟨horder, hnew⟩, hfinish⟩⟩
  · have hparts : (v'.parts ++ w.parts).filterMap (fun p => p.stage.fault?) = [f] := by
      rw [List.filterMap_append]
      exact (congrArg₂ _ hone hfaults).trans (List.append_nil _)
    have hclosed' : (v'.parts ++ w.parts).any (fun p => p.stage.isOpen) = false := by
      rw [List.any_append, Bool.or_eq_false_iff]
      exact ⟨hclosed, hopen⟩
    have hfinish : Job.exec (g.finish (.seq v w)) s = (.error f, s') := by
      rw [finish, Job.exec_bind, hrest]
    exact ⟨.inr ⟨f, hparts, hclosed', hfinish⟩, .inr ⟨f, hparts, hclosed', hfinish⟩,
      .inr ⟨f, hparts, hclosed', hfinish⟩⟩

/-- What stands on the left has been made. -/
theorem BringsForward.right (h : g.BringsForward w s w' s') (hmade : v.isMade = true) :
    g.BringsForward (.seq v w) s (.seq v w') s' ∧ g.BringsForward (.queue v w) s (.queue v w') s' ∧
      g.BringsForward (.par v w) s (.par v w') s' := by
  have hfaults := Work.faults_of_isMade hmade
  have hopen := Work.isOpen_of_isMade hmade
  have hleft := g.finish_of_isMade hmade
  rcases h with ⟨hnone, horder, hrest⟩ | ⟨f, hone, hclosed, hrest⟩
  · have hparts : (v.parts ++ w'.parts).filterMap (fun p => p.stage.fault?) = [] := by
      rw [List.filterMap_append]
      exact List.append_eq_nil_iff.mpr ⟨hfaults, hnone⟩
    have hfinish : Job.exec (g.finish (.seq v w)) s = Job.exec (g.finish (.seq v w')) s' := by
      rw [finish, finish, hleft, pure_bind, pure_bind, Job.exec_bind, hrest, ← Job.exec_bind]
    exact ⟨.inl ⟨hparts, .inl ⟨hmade, horder⟩, hfinish⟩, .inl ⟨hparts, .inl ⟨hmade, horder⟩, hfinish⟩,
      .inl ⟨hparts, .inl ⟨hmade, horder⟩, hfinish⟩⟩
  · have hparts : (v.parts ++ w'.parts).filterMap (fun p => p.stage.fault?) = [f] := by
      rw [List.filterMap_append]
      exact congrArg₂ _ hfaults hone
    have hclosed' : (v.parts ++ w'.parts).any (fun p => p.stage.isOpen) = false := by
      rw [List.any_append, Bool.or_eq_false_iff]
      exact ⟨hopen, hclosed⟩
    have hfinish : Job.exec (g.finish (.seq v w)) s = (.error f, s') := by
      rw [finish, hleft, pure_bind, Job.exec_bind, hrest]
    exact ⟨.inr ⟨f, hparts, hclosed', hfinish⟩, .inr ⟨f, hparts, hclosed', hfinish⟩,
      .inr ⟨f, hparts, hclosed', hfinish⟩⟩

/-- Of two sides in order, the left one goes on, or it has been made and the right one does. -/
theorem inOrder_cases (hfaults : v.faults ++ w.faults = [])
    (horder : v.isMade = true ∧ w.InOrder ∨ v.InOrder ∧ w.isNew = true) :
    (v.canGo = true ∧ v.InOrder ∧ w.isNew = true) ∨ (v.canGo = false ∧ v.isMade = true ∧ w.InOrder) := by
  obtain ⟨hv, -⟩ := List.append_eq_nil_iff.mp hfaults
  cases hgo : v.canGo with
  | true =>
    refine .inl ⟨rfl, horder.resolve_left fun hmade => ?_⟩
    rw [Work.canGo_of_isMade hmade.1] at hgo
    cases hgo
  | false =>
    refine .inr ⟨rfl, Work.isMade_of_not_canGo hgo hv, ?_⟩
    rcases horder with ⟨-, horder⟩ | ⟨-, hnew⟩
    · exact horder
    · exact Work.inOrder_of_isNew hnew

/-- **In order, one act brings work forward.** -/
theorem bringsForward_of_advance (hgo : w.canGo = true) (horder : w.InOrder) (hfaults : w.faults = [])
    (s : RunState) : ∃ w' s', Job.exec (g.advance w []) s = (.ok w', s') ∧ g.BringsForward w s w' s' := by
  induction w with
  | nothing => cases hgo
  | part p =>
    obtain ⟨s', hact, hforward⟩ := bringsForward_part (g := g) (p := p) (by simpa [Work.canGo] using hgo) s
    refine ⟨_, s', ?_, hforward⟩
    rw [advance, ← bind_pure_comp, Job.exec_bind, hact]
    rfl
  | seq v w ihv ihw =>
    have hboth : v.faults ++ w.faults = [] := List.filterMap_append.symm.trans hfaults
    obtain ⟨hv, hw⟩ := List.append_eq_nil_iff.mp hboth
    rcases inOrder_cases hboth horder with ⟨hgov, hordv, hnew⟩ | ⟨hgov, hmade, hordw⟩
    · obtain ⟨v', s', hadvance, hforward⟩ := ihv hgov hordv hv
      refine ⟨.seq v' w, s', ?_, (hforward.left hnew).1⟩
      simp only [advance, hgov, if_true, Job.exec_bind, hadvance, Job.exec_pure]
    · obtain ⟨w', s', hadvance, hforward⟩ := ihw (by simpa [Work.canGo, hgov, hmade] using hgo) hordw hw
      refine ⟨.seq v w', s', ?_, (hforward.right hmade).1⟩
      simp only [advance, hgov, hmade, Bool.false_eq_true, if_false, if_true, Job.exec_bind, hadvance, Job.exec_pure]
  | queue v w ihv ihw =>
    have hboth : v.faults ++ w.faults = [] := List.filterMap_append.symm.trans hfaults
    obtain ⟨hv, hw⟩ := List.append_eq_nil_iff.mp hboth
    rcases inOrder_cases hboth horder with ⟨hgov, hordv, hnew⟩ | ⟨hgov, hmade, hordw⟩
    · obtain ⟨v', s', hadvance, hforward⟩ := ihv hgov hordv hv
      refine ⟨.queue v' w, s', ?_, (hforward.left hnew).2.1⟩
      simp only [advance, hgov, if_true, Job.exec_bind, hadvance, Job.exec_pure]
    · obtain ⟨w', s', hadvance, hforward⟩ := ihw (by simpa [Work.canGo, hgov] using hgo) hordw hw
      refine ⟨.queue v w', s', ?_, (hforward.right hmade).2.1⟩
      simp only [advance, hgov, Bool.false_eq_true, if_false, Job.exec_bind, hadvance, Job.exec_pure]
  | par v w ihv ihw =>
    have hboth : v.faults ++ w.faults = [] := List.filterMap_append.symm.trans hfaults
    obtain ⟨hv, hw⟩ := List.append_eq_nil_iff.mp hboth
    rcases inOrder_cases hboth horder with ⟨hgov, hordv, hnew⟩ | ⟨hgov, hmade, hordw⟩
    · obtain ⟨v', s', hadvance, hforward⟩ := ihv hgov hordv hv
      refine ⟨.par v' w, s', ?_, (hforward.left hnew).2.2⟩
      have hside : (v.canGo && (([] : List Side).head? ≠ some .right || !w.canGo)) = true := by simp [hgov]
      simp only [advance, hside, if_true, List.tail_nil, Job.exec_bind, hadvance, Job.exec_pure]
    · obtain ⟨w', s', hadvance, hforward⟩ := ihw (by simpa [Work.canGo, hgov] using hgo) hordw hw
      refine ⟨.par v w', s', ?_, (hforward.right hmade).2.2⟩
      simp only [advance, hgov, Bool.false_and, Bool.false_eq_true, if_false, List.tail_nil, Job.exec_bind, hadvance,
        Job.exec_pure]

/-! ## Runs -/

/-- Of work that has come to its end without a fault, only the report is left. -/
theorem conclude_eq_finish (hgo : w.canGo = false) (hfaults : w.faults = []) (σ : Scheduler) :
    conclude σ w = g.finish w := by
  rw [conclude_of_faults_nil hfaults, finish_of_isMade (Work.isMade_of_not_canGo hgo hfaults)]

/-- In turn, what is done with work is what is left to do of it. -/
theorem exec_goOn_inTurn {fuel : Nat} (hfuel : w.ahead ≤ fuel) (horder : w.InOrder) (hfaults : w.faults = [])
    (s : RunState) :
    Job.exec (do conclude .inTurn (← g.goOn .inTurn fuel w)) s = Job.exec (g.finish w) s := by
  -- one act brings the work forward, either to work in order with the same rest or to the fault of the rest
  induction fuel generalizing w s with
  | zero => exact congrArg (Job.exec · s) (conclude_eq_finish (g.canGo_of_ahead (Nat.le_zero.mp hfuel) s) hfaults _)
  | succ fuel ih =>
    cases hgo : w.canGo with
    | false =>
      have hgoes : Scheduler.inTurn.goesOn w = false := by rw [Scheduler.goesOn, hgo, Bool.false_and]
      simp only [goOn, hgoes, Bool.false_eq_true, if_false, pure_bind, conclude_eq_finish (g := g) hgo hfaults]
    | true =>
      have hgoes : Scheduler.inTurn.goesOn w = true := by simp [Scheduler.goesOn, hgo, hfaults]
      obtain ⟨w', s', hadvance, hforward⟩ := bringsForward_of_advance (g := g) hgo horder hfaults s
      have hrun : Job.exec (do conclude .inTurn (← g.goOn .inTurn (fuel + 1) w)) s =
          Job.exec (do conclude .inTurn (← g.goOn .inTurn fuel w')) s' := by
        have hnext : Job.exec (g.advance w (Scheduler.inTurn.next w)) s = (.ok w', s') := hadvance
        simp only [goOn, hgoes, if_true, Job.exec_bind, hnext]
      have hless : w'.ahead ≤ fuel := by
        obtain ⟨w₁, s₁, hadvance₁, hstep⟩ := g.step_of_advance hgo [] s
        obtain ⟨rfl, rfl⟩ : w' = w₁ ∧ s' = s₁ := by simpa using hadvance.symm.trans hadvance₁
        exact Nat.le_of_lt_succ (Nat.lt_of_lt_of_le hstep.ahead_lt hfuel)
      rw [hrun]
      rcases hforward with ⟨hnone, horder', hrest⟩ | ⟨f, hone, hclosed, hrest⟩
      · rw [ih hless horder' hnone s', hrest]
      · -- the run is given up at its first fault
        have hgoes' : Scheduler.inTurn.goesOn w' = false := by
          simp [Scheduler.goesOn, Scheduler.inTurn, hone, hclosed]
        have hstay : g.goOn .inTurn fuel w' = pure w' := by
          cases fuel with
          | zero => rfl
          | succ fuel => simp only [goOn, hgoes', Bool.false_eq_true, if_false]
        rw [hstay, pure_bind, hrest, conclude, hone]
        rfl

/-- **To generate in turn is to generate.** -/
theorem generateBy_inTurn (g : Generator) (o : Outline) : g.generateBy .inTurn o = g.generate o := by
  have hnew := g.settings.isNew_work o
  apply Job.exec_ext
  intro s
  rw [generate_eq_performAll, ← Settings.tasks_work, ← finish_of_isNew hnew]
  exact exec_goOn_inTurn (Nat.le_refl _) (Work.inOrder_of_isNew hnew) (Work.faults_of_isNew hnew) s

end Generator

end Stencil
