import Stencil.Proofs.Run.Plan

/-!
# `Stencil.Proofs.Run.Turns` — how work goes on

## Contents
- **Work.** What holds of the parts of work as a list, and of work that cannot go on.
- **Turns.** `Work.Turn` says that one part of work goes from one stage to another, and that it need not wait.
- **Order.** In work that is `Orderly`, nothing has begun that has to wait. Every turn keeps it so.
- **Steps.** Where work can go on, a part takes its turn (`exists_turn`). A `Generator.Step` is a turn with the act
  that takes it. What a scheduler does with work is a list of steps, and it goes on until there is nothing to do or the
  run is given up (`steps_of_goOn`).
- **Runs.** A run comes to work of which everything has been made, or of which something has stopped
  (`exec_generateBy_eq_ok`, `exec_generateBy_eq_error`).
-/

namespace Stencil

/-! ## Work -/

namespace Stage

variable {t : Task} {stage : Stage t}

theorem ahead_of_isNew (h : stage.isNew = true) : stage.ahead = 4 := by
  cases stage <;> first | rfl | cases h

theorem fault?_of_isNew (h : stage.isNew = true) : stage.fault? = none := by
  cases stage <;> first | rfl | cases h

theorem fault?_of_report? (h : stage.report?.isSome = true) : stage.fault? = none := by
  cases stage <;> first | rfl | cases h

theorem ahead_of_isOpen (h : stage.isOpen = true) : stage.ahead = 1 := by
  cases stage <;> first | rfl | cases h

/-- Nothing is ahead of what has been made or has stopped, and of nothing else. -/
theorem ahead_eq_zero_iff : stage.ahead = 0 ↔ stage.report?.isSome = true ∨ stage.fault?.isSome = true := by
  cases stage <;> simp [ahead, report?, fault?]

end Stage

namespace Work

variable {v w : Work}

/-- Whether nothing of it has begun. -/
def isNew (w : Work) : Bool := w.parts.all fun p => p.stage.isNew

/-- What has been made does not go on. -/
theorem canGo_of_isMade (h : w.isMade = true) : w.canGo = false := by
  induction w with
  | nothing => rfl
  | part p =>
    have hmade : p.stage.report?.isSome = true := by simpa [isMade, parts] using h
    simp [canGo, Stage.ahead_eq_zero_iff, hmade]
  | seq v w ihv ihw | queue v w ihv ihw | par v w ihv ihw =>
    rw [isMade, parts, List.all_append, Bool.and_eq_true] at h
    simp [canGo, ihv h.1, ihw h.2]

/-- What cannot go on and has not stopped has been made. -/
theorem isMade_of_not_canGo (hgo : w.canGo = false) (hfaults : w.faults = []) : w.isMade = true := by
  induction w with
  | nothing => rfl
  | part p =>
    have hzero : p.stage.ahead = 0 := by simpa [canGo] using hgo
    have hnot : p.stage.fault? = none := by simpa [faults, parts] using hfaults
    simpa [isMade, parts, hnot] using Stage.ahead_eq_zero_iff.mp hzero
  | seq v w ihv ihw =>
    rw [faults, parts, List.filterMap_append, List.append_eq_nil_iff] at hfaults
    simp only [canGo, Bool.or_eq_false_iff] at hgo
    have hv := ihv hgo.1 hfaults.1
    have hw := ihw (by simpa [hv] using hgo.2) hfaults.2
    rw [isMade, parts, List.all_append, Bool.and_eq_true]
    exact ⟨hv, hw⟩
  | queue v w ihv ihw | par v w ihv ihw =>
    rw [faults, parts, List.filterMap_append, List.append_eq_nil_iff] at hfaults
    simp only [canGo, Bool.or_eq_false_iff] at hgo
    rw [isMade, parts, List.all_append, Bool.and_eq_true]
    exact ⟨ihv hgo.1 hfaults.1, ihw hgo.2 hfaults.2⟩

theorem faults_of_isNew (h : w.isNew = true) : w.faults = [] :=
  List.filterMap_eq_nil_iff.mpr fun p hp => Stage.fault?_of_isNew (List.all_eq_true.mp h p hp)

/-- The same work with other stages. -/
def withStages (stages : (t : Task) → Stage t) : Work → Work
  | .nothing => .nothing
  | .part p => .part ⟨p.task, stages p.task⟩
  | .seq v w => .seq (v.withStages stages) (w.withStages stages)
  | .queue v w => .queue (v.withStages stages) (w.withStages stages)
  | .par v w => .par (v.withStages stages) (w.withStages stages)

/-- Work is decided by the stages of its parts. -/
theorem eq_withStages {stages : (t : Task) → Stage t} (h : ∀ p ∈ w.parts, p.stage = stages p.task) :
    w = w.withStages stages := by
  induction w with
  | nothing => rfl
  | part p => rw [withStages, ← h p (List.mem_singleton_self p)]
  | seq v w ihv ihw | queue v w ihv ihw | par v w ihv ihw =>
    have hv := ihv fun p hp => h p (List.mem_append_left _ hp)
    have hw := ihw fun p hp => h p (List.mem_append_right _ hp)
    rw [withStages, ← hv, ← hw]

theorem withStages_congr {stages stages' : (t : Task) → Stage t} (h : ∀ t ∈ w.tasks, stages t = stages' t) :
    w.withStages stages = w.withStages stages' := by
  induction w with
  | nothing => rfl
  | part p => rw [withStages, withStages, h p.task (List.mem_singleton_self _)]
  | seq v w ihv ihw | queue v w ihv ihw | par v w ihv ihw =>
    rw [tasks, parts, List.map_append] at h
    rw [withStages, withStages, ihv fun t ht => h t (List.mem_append_left _ ht),
      ihw fun t ht => h t (List.mem_append_right _ ht)]

/-! ## Turns -/

/-- One part of work goes from one stage to another. Everything that it had to wait for has come to its end. -/
inductive Turn {t : Task} (stage stage' : Stage t) : Work → Work → Prop
  | part : Turn stage stage' (.part ⟨t, stage⟩) (.part ⟨t, stage'⟩)
  | first {v v' w : Work} (h : Turn stage stage' v v') : Turn stage stage' (.seq v w) (.seq v' w)
  | second {v w w' : Work} (hmade : v.isMade = true) (h : Turn stage stage' w w') :
      Turn stage stage' (.seq v w) (.seq v w')
  | head {v v' w : Work} (h : Turn stage stage' v v') : Turn stage stage' (.queue v w) (.queue v' w)
  | tail {v w w' : Work} (hgo : v.canGo = false) (h : Turn stage stage' w w') :
      Turn stage stage' (.queue v w) (.queue v w')
  | left {v v' w : Work} (h : Turn stage stage' v v') : Turn stage stage' (.par v w) (.par v' w)
  | right {v w w' : Work} (h : Turn stage stage' w w') : Turn stage stage' (.par v w) (.par v w')

section Turn

variable {t : Task} {stage stage' : Stage t} {w' : Work}

/-- In the list of parts, one is exchanged. -/
theorem Turn.parts (h : Turn stage stage' w w') :
    ∃ before after, w.parts = before ++ ⟨t, stage⟩ :: after ∧ w'.parts = before ++ ⟨t, stage'⟩ :: after := by
  induction h with
  | part => exact ⟨[], [], rfl, rfl⟩
  | @first v v' w h ih | @head v v' w h ih | @left v v' w h ih =>
    obtain ⟨before, after, hold, hnew⟩ := ih
    exact ⟨before, after ++ w.parts, by simp [Work.parts, hold], by simp [Work.parts, hnew]⟩
  | @second v w w' hmade h ih | @tail v w w' hgo h ih | @right v w w' h ih =>
    obtain ⟨before, after, hold, hnew⟩ := ih
    exact ⟨v.parts ++ before, after, by simp [Work.parts, hold], by simp [Work.parts, hnew]⟩

theorem Turn.mem (h : Turn stage stage' w w') : ⟨t, stage⟩ ∈ w.parts := by
  obtain ⟨before, after, hold, -⟩ := h.parts
  simp [hold]

theorem Turn.mem_tasks (h : Turn stage stage' w w') : t ∈ w.tasks := List.mem_map.mpr ⟨_, h.mem, rfl⟩

theorem Turn.tasks (h : Turn stage stage' w w') : w'.tasks = w.tasks := by
  obtain ⟨before, after, hold, hnew⟩ := h.parts
  simp [Work.tasks, hold, hnew]

/-- A part of the new work is the one that has gone on, or was there before. -/
theorem Turn.of_mem (h : Turn stage stage' w w') {p : Part} (hp : p ∈ w'.parts) : p = ⟨t, stage'⟩ ∨ p ∈ w.parts := by
  obtain ⟨before, after, hold, hnew⟩ := h.parts
  rw [hnew] at hp
  rw [hold]
  simp only [List.mem_append, List.mem_cons] at hp ⊢
  tauto

/-- A part of the old work is the one that goes on, or is there still. -/
theorem Turn.mem_or (h : Turn stage stage' w w') {p : Part} (hp : p ∈ w.parts) : p = ⟨t, stage⟩ ∨ p ∈ w'.parts := by
  obtain ⟨before, after, hold, hnew⟩ := h.parts
  rw [hold] at hp
  rw [hnew]
  simp only [List.mem_append, List.mem_cons] at hp ⊢
  tauto

theorem Turn.mem' (h : Turn stage stage' w w') : ⟨t, stage'⟩ ∈ w'.parts := by
  obtain ⟨before, after, -, hnew⟩ := h.parts
  simp [hnew]

theorem Turn.ahead_lt (h : Turn stage stage' w w') (hlt : stage'.ahead < stage.ahead) : w'.ahead < w.ahead := by
  induction h with
  | part => exact hlt
  | first h ih | head h ih | left h ih => exact Nat.add_lt_add_right ih _
  | second hmade h ih | tail hgo h ih | right h ih => exact Nat.add_lt_add_left ih _

/-- Only what can go on takes a turn. -/
theorem Turn.canGo (h : Turn stage stage' w w') (hahead : stage.ahead ≠ 0) : w.canGo = true := by
  induction h with
  | part => simpa [Work.canGo] using hahead
  | first h ih | head h ih | left h ih => simp [Work.canGo, ih]
  | second hmade h ih => simp [Work.canGo, ih, hmade]
  | tail hgo h ih | right h ih => simp [Work.canGo, ih]

/-- A turn changes one stage and nothing else. -/
theorem Turn.withStages (h : Turn stage stage' w w') (stages : (t : Task) → Stage t) :
    w'.withStages stages = w.withStages stages := by
  induction h with
  | part => rfl
  | first h ih | head h ih | left h ih => rw [Work.withStages, Work.withStages, ih]
  | second hmade h ih | tail hgo h ih | right h ih => rw [Work.withStages, Work.withStages, ih]

/-- What goes on has not been made. -/
theorem Turn.not_isMade (h : Turn stage stage' w w') (hahead : stage.ahead ≠ 0) : w.isMade ≠ true := by
  intro hmade
  have hgo := h.canGo hahead
  rw [canGo_of_isMade hmade] at hgo
  cases hgo

end Turn

/-! ## Order -/

theorem isOpen_of_isNew (h : w.isNew = true) : w.isOpen = false := by
  rw [Work.isOpen, List.any_eq_false]
  intro p hp hopen
  have hnew := Stage.ahead_of_isNew (List.all_eq_true.mp h p hp)
  rw [Stage.ahead_of_isOpen hopen] at hnew
  cases hnew

/-- Nothing has begun that has to wait. -/
def Orderly : Work → Prop
  | .nothing => True
  | .part _ => True
  | .seq v w => v.Orderly ∧ w.Orderly ∧ (v.isMade = true ∨ w.isNew = true)
  | .queue v w => v.Orderly ∧ w.Orderly ∧ (v.canGo = false ∨ w.isNew = true)
  | .par v w => v.Orderly ∧ w.Orderly

theorem orderly_of_isNew (h : w.isNew = true) : w.Orderly := by
  induction w with
  | nothing | part p => trivial
  | seq v w ihv ihw | queue v w ihv ihw =>
    rw [isNew, parts, List.all_append, Bool.and_eq_true] at h
    exact ⟨ihv h.1, ihw h.2, .inr h.2⟩
  | par v w ihv ihw =>
    rw [isNew, parts, List.all_append, Bool.and_eq_true] at h
    exact ⟨ihv h.1, ihw h.2⟩

/-- **A turn keeps the order.** -/
theorem Orderly.turn {t : Task} {stage stage' : Stage t} {w' : Work} (horderly : w.Orderly)
    (h : Turn stage stage' w w') (hahead : stage.ahead ≠ 0) : w'.Orderly := by
  induction h with
  | part => trivial
  | first h ih =>
    obtain ⟨hv, hw, hwait⟩ := horderly
    -- what goes on has not been made, so what waits for it has not begun
    exact ⟨ih hv, hw, .inr (hwait.resolve_left (h.not_isMade hahead))⟩
  | head h ih =>
    obtain ⟨hv, hw, hwait⟩ := horderly
    refine ⟨ih hv, hw, .inr (hwait.resolve_left ?_)⟩
    rw [h.canGo hahead]
    simp
  | left h ih => exact ⟨ih horderly.1, horderly.2⟩
  | second hmade h ih => exact ⟨horderly.1, ih horderly.2.1, .inl hmade⟩
  | tail hgo h ih => exact ⟨horderly.1, ih horderly.2.1, .inl hgo⟩
  | right h ih => exact ⟨horderly.1, ih horderly.2⟩

/-- No file is left open where nothing can go on. -/
theorem Orderly.isOpen (horderly : w.Orderly) (hgo : w.canGo = false) : w.isOpen = false := by
  induction w with
  | nothing => rfl
  | part p =>
    have hzero : p.stage.ahead = 0 := by simpa [canGo] using hgo
    rw [← Bool.not_eq_true]
    intro hopen
    rw [Stage.ahead_of_isOpen (by simpa [Work.isOpen, parts] using hopen)] at hzero
    cases hzero
  | seq v w ihv ihw =>
    simp only [canGo, Bool.or_eq_false_iff] at hgo
    obtain ⟨hv, hw, hwait⟩ := horderly
    -- the second one cannot go on either, or it has not begun
    rw [Work.isOpen, parts, List.any_append, Bool.or_eq_false_iff]
    refine ⟨ihv hv hgo.1, ?_⟩
    rcases hwait with hmade | hnew
    · exact ihw hw (by simpa [hmade] using hgo.2)
    · exact isOpen_of_isNew hnew
  | queue v w ihv ihw =>
    simp only [canGo, Bool.or_eq_false_iff] at hgo
    rw [Work.isOpen, parts, List.any_append, Bool.or_eq_false_iff]
    exact ⟨ihv horderly.1 hgo.1, ihw horderly.2.1 hgo.2⟩
  | par v w ihv ihw =>
    simp only [canGo, Bool.or_eq_false_iff] at hgo
    rw [Work.isOpen, parts, List.any_append, Bool.or_eq_false_iff]
    exact ⟨ihv horderly.1 hgo.1, ihw horderly.2 hgo.2⟩

end Work

namespace Settings

variable (s : Settings)

theorem parts_workOfFiles (folder : Path) (files : List File) :
    (s.workOfFiles folder files).parts = files.map fun f => ⟨.file folder f, .new⟩ := by
  induction files with
  | nil => rfl
  | cons f files ih =>
    rw [workOfFiles]
    split <;> rw [Work.parts, ih] <;> rfl

mutual

theorem parts_workOfFolder (parent : Path) : (f : Folder) →
    (s.workOfFolder parent f).parts = (s.planFolder parent f).map fun t => ⟨t, .new⟩
  | .mk name files folders => by
    simp only [workOfFolder, planFolder, Work.parts, parts_workOfFiles, parts_workOfFolders _ folders, List.map_cons,
      List.map_append, List.map_map, List.singleton_append]
    rfl

theorem parts_workOfFolders (parent : Path) : (fs : List Folder) →
    (s.workOfFolders parent fs).parts = (s.planFolders parent fs).map fun t => ⟨t, .new⟩
  | [] => by rw [workOfFolders, planFolders]; rfl
  | f :: fs => by
    rw [workOfFolders, planFolders, Work.parts, parts_workOfFolder parent f, parts_workOfFolders parent fs,
      List.map_append]

end

/-- **The work of an outline is its plan**, of which nothing has begun. -/
theorem parts_work (o : Outline) : (s.work o).parts = (s.plan o).map fun t => ⟨t, .new⟩ := by
  rw [work, plan]
  induction o.folders with
  | nil => rw [planFolders]; rfl
  | cons f fs ih => rw [planFolders, List.foldr_cons, Work.parts, ih, parts_workOfFolder, List.map_append]

theorem tasks_work (o : Outline) : (s.work o).tasks = s.plan o := by
  rw [Work.tasks, parts_work, List.map_map]
  exact List.map_id _

theorem isNew_work (o : Outline) : (s.work o).isNew = true := by
  rw [Work.isNew, parts_work, List.all_map]
  exact List.all_eq_true.mpr fun _ _ => rfl

end Settings

/-! ## Steps -/

namespace Generator

variable (g : Generator)

/-- One part takes its turn, with the act for it. -/
inductive Step (g : Generator) : Work → RunState → Work → RunState → Prop
  | mk {t : Task} {stage stage' : Stage t} {w w' : Work} {s s' : RunState} (hahead : stage.ahead ≠ 0)
      (hturn : Work.Turn stage stage' w w') (hact : Job.exec (g.actOn ⟨t, stage⟩) s = (.ok ⟨t, stage'⟩, s')) :
      Step g w s w' s'

/-- Any number of steps. -/
inductive Steps (g : Generator) : Work → RunState → Work → RunState → Prop
  | refl {w : Work} {s : RunState} : Steps g w s w s
  | cons {w w₁ w₂ : Work} {s s₁ s₂ : RunState} (h : g.Step w s w₁ s₁) (hs : Steps g w₁ s₁ w₂ s₂) :
      Steps g w s w₂ s₂

variable {g} {w w' : Work} {s s' : RunState} {σ : Scheduler}

/-- **What every step keeps, steps keep.** -/
theorem Steps.keeps {p : Work → RunState → Prop} (h : g.Steps w s w' s') (hstart : p w s)
    (hstep : ∀ w s w' s', p w s → g.Step w s w' s' → p w' s') : p w' s' := by
  induction h with
  | refl => exact hstart
  | cons h hs ih => exact ih (hstep _ _ _ _ hstart h)

theorem Steps.concat {w₁ : Work} {s₁ : RunState} (h : g.Steps w s w₁ s₁) (hstep : g.Step w₁ s₁ w' s') :
    g.Steps w s w' s' := by
  induction h with
  | refl => exact .cons hstep .refl
  | cons h hs ih => exact .cons h (ih hstep)

/-- What every step keeps that comes after such steps, such steps keep. -/
theorem Steps.keeps_after {p : Work → RunState → Prop} (h : g.Steps w s w' s') (hstart : p w s)
    (hstep : ∀ w₁ s₁ w₂ s₂, g.Steps w s w₁ s₁ → p w₁ s₁ → g.Step w₁ s₁ w₂ s₂ → p w₂ s₂) : p w' s' :=
  (h.keeps (p := fun w₁ s₁ => g.Steps w s w₁ s₁ ∧ p w₁ s₁) ⟨.refl, hstart⟩
    fun _ _ _ _ ⟨hsteps, hp⟩ hnext => ⟨hsteps.concat hnext, hstep _ _ _ _ hsteps hp hnext⟩).2

theorem Steps.tasks (h : g.Steps w s w' s') : w'.tasks = w.tasks := by
  refine h.keeps (p := fun w₁ _ => w₁.tasks = w.tasks) rfl fun _ _ _ _ hw hstep => ?_
  cases hstep with
  | mk hahead hturn hact => exact hturn.tasks.trans hw

/-- Steps change stages and nothing else. -/
theorem Steps.withStages (h : g.Steps w s w' s') (stages : (t : Task) → Stage t) :
    w'.withStages stages = w.withStages stages := by
  refine h.keeps (p := fun w₁ _ => w₁.withStages stages = w.withStages stages) rfl fun _ _ _ _ hw hstep => ?_
  cases hstep with
  | mk hahead hturn hact => exact (hturn.withStages stages).trans hw

theorem Steps.orderly (h : g.Steps w s w' s') (horderly : w.Orderly) : w'.Orderly := by
  refine h.keeps (p := fun w₁ _ => w₁.Orderly) horderly fun _ _ _ _ hw hstep => ?_
  cases hstep with
  | mk hahead hturn hact => exact hw.turn hturn hahead

/-- What an act comes to: the next stage, or the fault. -/
def outcomeOf (g : Generator) (p : Part) (s : RunState) : Stage p.task :=
  match (Job.exec (g.act p.task p.stage) s).1 with
  | .ok stage => stage
  | .error f => .stopped f

theorem exec_actOn (p : Part) (s : RunState) :
    Job.exec (g.actOn p) s = (.ok ⟨p.task, g.outcomeOf p s⟩, (Job.exec (g.act p.task p.stage) s).2) := by
  rw [actOn, Job.exec_bind, Job.exec_attempt, outcomeOf]
  cases (Job.exec (g.act p.task p.stage) s).1 <;> rfl

/-- **What can go on takes a turn.** Which part that is and where it is put back does not depend on the state, nor on how
    the run behaves. -/
theorem exists_turn (hgo : w.canGo = true) (sides : List Side) :
    ∃ t, ∃ stage : Stage t, ∃ put : Part → Work, stage.ahead ≠ 0 ∧
      (∀ stage', Work.Turn stage stage' w (put ⟨t, stage'⟩)) ∧
      ∀ g : Generator, g.advance w sides = put <$> g.actOn ⟨t, stage⟩ := by
  -- by induction on the work: the side that goes on has a part that does, which is put back where it was
  induction w generalizing sides with
  | nothing => cases hgo
  | part p => exact ⟨p.task, p.stage, .part, by simpa [Work.canGo] using hgo, fun _ => .part, fun g => rfl⟩
  | seq v w ihv ihw =>
    cases hv : v.canGo with
    | true =>
      obtain ⟨t, stage, put, hahead, hturn, hadvance⟩ := ihv hv sides
      exact ⟨t, stage, fun p => .seq (put p) w, hahead, fun stage' => .first (hturn stage'), fun g => by
        simp only [advance, hv, if_true, hadvance, ← bind_pure_comp, bind_assoc, pure_bind]⟩
    | false =>
      obtain ⟨hmade, hw⟩ : v.isMade = true ∧ w.canGo = true := by simpa [Work.canGo, hv] using hgo
      obtain ⟨t, stage, put, hahead, hturn, hadvance⟩ := ihw hw sides
      exact ⟨t, stage, fun p => .seq v (put p), hahead, fun stage' => .second hmade (hturn stage'), fun g => by
        simp only [advance, hv, hmade, Bool.false_eq_true, if_false, if_true, hadvance, ← bind_pure_comp, bind_assoc,
          pure_bind]⟩
  | queue v w ihv ihw =>
    cases hv : v.canGo with
    | true =>
      obtain ⟨t, stage, put, hahead, hturn, hadvance⟩ := ihv hv sides
      exact ⟨t, stage, fun p => .queue (put p) w, hahead, fun stage' => .head (hturn stage'), fun g => by
        simp only [advance, hv, if_true, hadvance, ← bind_pure_comp, bind_assoc, pure_bind]⟩
    | false =>
      have hw : w.canGo = true := by simpa [Work.canGo, hv] using hgo
      obtain ⟨t, stage, put, hahead, hturn, hadvance⟩ := ihw hw sides
      exact ⟨t, stage, fun p => .queue v (put p), hahead, fun stage' => .tail hv (hturn stage'), fun g => by
        simp only [advance, hv, Bool.false_eq_true, if_false, hadvance, ← bind_pure_comp, bind_assoc, pure_bind]⟩
  | par v w ihv ihw =>
    cases hside : v.canGo && (sides.head? ≠ some .right || !w.canGo) with
    | true =>
      have hv : v.canGo = true := (Bool.and_eq_true _ _ ▸ hside).1
      obtain ⟨t, stage, put, hahead, hturn, hadvance⟩ := ihv hv sides.tail
      exact ⟨t, stage, fun p => .par (put p) w, hahead, fun stage' => .left (hturn stage'), fun g => by
        simp only [advance, hside, if_true, hadvance, ← bind_pure_comp, bind_assoc, pure_bind]⟩
    | false =>
      have hw : w.canGo = true := by
        cases hv : v.canGo <;> simp_all [Work.canGo]
      obtain ⟨t, stage, put, hahead, hturn, hadvance⟩ := ihw hw sides.tail
      exact ⟨t, stage, fun p => .par v (put p), hahead, fun stage' => .right (hturn stage'), fun g => by
        simp only [advance, hside, Bool.false_eq_true, if_false, hadvance, ← bind_pure_comp, bind_assoc,
          pure_bind]⟩

/-- What can go on goes on, by one step. -/
theorem step_of_advance (hgo : w.canGo = true) (sides : List Side) (s : RunState) :
    ∃ w' s', Job.exec (g.advance w sides) s = (.ok w', s') ∧ g.Step w s w' s' := by
  obtain ⟨t, stage, put, hahead, hturn, hadvance⟩ := exists_turn hgo sides
  have hact := exec_actOn (g := g) ⟨t, stage⟩ s
  refine ⟨_, _, ?_, .mk hahead (hturn _) hact⟩
  rw [hadvance, ← bind_pure_comp, Job.exec_bind, hact]
  rfl

/-- An act comes closer to the end. What it comes to has not stopped; only a fault stops it. -/
theorem act_yields {t : Task} {stage : Stage t} (h : stage.ahead ≠ 0) :
    (g.act t stage).Yields fun stage' => stage'.ahead < stage.ahead ∧ stage'.fault? = none := by
  cases t with
  | folder parent name =>
    cases stage with
    | new =>
      refine (Job.yields_true _).bind fun _ _ => ?_
      split <;> exact Job.yields_pure (by simp [Stage.ahead, Stage.fault?])
    | announced =>
      refine (Job.yields_true _).bind fun _ _ => (Job.yields_true _).bind fun _ _ => ?_
      exact Job.yields_pure (by simp [Stage.ahead, Stage.fault?])
    | made r | stopped f => exact absurd rfl h
  | file folder f =>
    cases stage with
    | new =>
      unfold act actOnFile
      dsimp only
      split
      · exact Job.yields_pure (by simp [Stage.ahead, Stage.fault?])
      · split
        · exact Job.yields_pure (by simp [Stage.ahead, Stage.fault?])
        · exact (Job.yields_true _).bind fun _ _ => Job.yields_pure (by simp [Stage.ahead, Stage.fault?])
    | announced => exact (Job.yields_true _).bind fun _ _ => Job.yields_pure (by simp [Stage.ahead, Stage.fault?])
    | read body =>
      refine (Job.yields_true _).bind fun _ _ => (Job.yields_true _).bind fun _ _ => ?_
      exact Job.yields_pure (by simp [Stage.ahead, Stage.fault?])
    | opened body l =>
      refine (Job.yields_true _).bind fun _ _ => (Job.yields_true _).bind fun _ _ => ?_
      exact Job.yields_pure (by simp [Stage.ahead, Stage.fault?])
    | made r | stopped f => exact absurd rfl h

/-- A step comes closer to the end. -/
theorem Step.ahead_lt (h : g.Step w s w' s') : w'.ahead < w.ahead := by
  cases h with
  | @mk t stage stage' _ _ _ _ hahead hturn hact =>
    refine hturn.ahead_lt ?_
    rw [exec_actOn, Prod.mk.injEq] at hact
    have hstage : g.outcomeOf ⟨t, stage⟩ s = stage' := by simpa using hact.1
    rw [← hstage, outcomeOf]
    split
    · next next hnext => exact (act_yields hahead s next _ (by rw [← hnext])).1
    · exact Nat.pos_of_ne_zero hahead

theorem canGo_of_ahead (g : Generator) (h : w.ahead = 0) (s : RunState) : w.canGo = false := by
  rw [← Bool.not_eq_true]
  intro hgo
  obtain ⟨w', s', -, hstep⟩ := g.step_of_advance hgo [] s
  exact Nat.not_lt_zero _ (h ▸ hstep.ahead_lt)

/-- **What a scheduler does with work is a list of steps**, up to work with which it does not go on. -/
theorem steps_of_goOn {fuel : Nat} (hfuel : w.ahead ≤ fuel) (s : RunState) :
    ∃ w' s', Job.exec (g.goOn σ fuel w) s = (.ok w', s') ∧ g.Steps w s w' s' ∧ σ.goesOn w' = false := by
  induction fuel generalizing w s with
  | zero =>
    refine ⟨w, s, rfl, .refl, ?_⟩
    rw [Scheduler.goesOn, g.canGo_of_ahead (Nat.le_zero.mp hfuel) s, Bool.false_and]
  | succ fuel ih =>
    cases hgo : σ.goesOn w with
    | false => exact ⟨w, s, by simp only [goOn, hgo, Bool.false_eq_true, if_false, Job.exec_pure], .refl, hgo⟩
    | true =>
      have hcan : w.canGo = true := by
        rw [Scheduler.goesOn, Bool.and_eq_true] at hgo
        exact hgo.1
      -- every step comes closer to the end, so the fuel is enough for the rest
      obtain ⟨w₁, s₁, hadvance, hstep⟩ := g.step_of_advance hcan (σ.next w) s
      have hless : w₁.ahead ≤ fuel := Nat.le_of_lt_succ (Nat.lt_of_lt_of_le hstep.ahead_lt hfuel)
      obtain ⟨w', s', hrest, hsteps, hend⟩ := ih hless s₁
      refine ⟨w', s', ?_, .cons hstep hsteps, hend⟩
      simp only [goOn, hgo, if_true, Job.exec_bind, hadvance, hrest]

/-! ## Runs -/

/-- A run takes steps, and then it comes to its conclusion. -/
theorem exec_generateBy (g : Generator) (σ : Scheduler) (o : Outline) (s : RunState) :
    ∃ w s', g.Steps (g.settings.work o) s w s' ∧ σ.goesOn w = false ∧
      Job.exec (g.generateBy σ o) s = Job.exec (conclude σ w) s' := by
  obtain ⟨w, s', hrun, hsteps, hend⟩ := g.steps_of_goOn (σ := σ) (Nat.le_refl (g.settings.work o).ahead) s
  refine ⟨w, s', hsteps, hend, ?_⟩
  rw [generateBy, Job.exec_bind, hrun]

theorem conclude_of_faults_nil (h : w.faults = []) : conclude σ w = pure w.report := by
  rw [conclude, h]

/-- A run with a result has made everything. -/
theorem exec_generateBy_eq_ok {o : Outline} {r : Report} (h : Job.exec (g.generateBy σ o) s = (.ok r, s')) :
    ∃ w, g.Steps (g.settings.work o) s w s' ∧ w.isMade = true ∧ r = w.report := by
  obtain ⟨w, s₁, hsteps, hend, hrun⟩ := g.exec_generateBy σ o s
  rw [hrun] at h
  cases hfaults : w.faults with
  | cons f fs =>
    rw [conclude, hfaults] at h
    cases h
  | nil =>
    rw [conclude_of_faults_nil hfaults] at h
    obtain ⟨rfl, rfl⟩ := Job.exec_pure_eq_ok h
    -- nothing has stopped, so there was nothing left to do
    have hgo : w.canGo = false := by simpa [Scheduler.goesOn, hfaults] using hend
    exact ⟨w, hsteps, Work.isMade_of_not_canGo hgo hfaults, rfl⟩

/-- A run that ends with a fault has the fault of one of its parts. It leaves no file open. -/
theorem exec_generateBy_eq_error {o : Outline} {f : Fault} (h : Job.exec (g.generateBy σ o) s = (.error f, s')) :
    ∃ w, g.Steps (g.settings.work o) s w s' ∧ f ∈ w.faults ∧ w.isOpen = false := by
  obtain ⟨w, s₁, hsteps, hend, hrun⟩ := g.exec_generateBy σ o s
  rw [hrun, conclude] at h
  split at h
  · cases h
  · next first rest hfaults =>
    cases h
    refine ⟨w, hsteps, ?_, ?_⟩
    · rw [hfaults, List.getD_eq_getElem?_getD]
      cases hpick : (first :: rest)[σ.picks w]? with
      | none => exact List.mem_cons_self
      | some f => exact List.mem_of_getElem? hpick
    · cases hgo : w.canGo with
      | false => exact (hsteps.orderly (Work.orderly_of_isNew (g.settings.isNew_work o))).isOpen hgo
      | true =>
        rw [Scheduler.goesOn, hgo, hfaults] at hend
        simp only [List.isEmpty_cons, Bool.false_or, Bool.true_and, Bool.or_eq_false_iff] at hend
        exact hend.1

end Generator

end Stencil
