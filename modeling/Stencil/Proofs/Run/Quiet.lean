import Mathlib.Data.List.Perm.Subperm
import Stencil.Proofs.Run.Stop

/-!
# `Stencil.Proofs.Run.Quiet` — quiet runs

## Contents
- **Chatter.** The tree of an outline and the progress lines are what a quiet run leaves out.
- **Echoes.** A quiet job echoes a loud one from a disk if both end the same and leave the same disk, and the quiet one
  prints the same but for the chatter. What the loud one says in all is said in part if it ends with a fault.
- **Elementary jobs.** What prints nothing and looks at nothing but the disk echoes itself.
- **Announcements.** The first act of a task announces it. Since a scheduler looks at nothing but the work, the acts of a
  quiet run echo those of the loud one, whatever their order (`echo_goOn`).
- **Whole runs.** On a host whose console takes the tree of the outline, a whole quiet run does what the loud one does
  (`hushes_runOn`). The title of the tree is not marked up as it should be, and not every console takes it
  (`runOn_fails_at_title`).
-/

namespace Stencil

open Console Text

/-! ## Chatter -/

/-- Whether an event is one that a quiet run leaves out: a tree or a progress line. -/
def Console.Event.isChatter : Event → Bool
  | .tree _ => true
  | .progress _ => true
  | _ => false

/-! ## Echoes -/

namespace Job

variable {α β : Type} {disk disk' : FileSystem} {said more es : List Event} {result : Except Fault α}

/-- How a quiet job and a loud one go from a disk, whatever has been printed before: they end the same and leave the
    same disk, and of what the loud one prints, the quiet one leaves out the chatter. That is, in some order, all that is
    to be `said` if there is a result, and a part of it if there is a fault. -/
structure Echo (quiet loud : Job α) (disk : FileSystem) (said : List Event) (result : Except Fault α)
    (disk' : FileSystem) (es : List Event) : Prop where
  loud : ∀ printed, exec loud ⟨disk, printed⟩ = (result, ⟨disk', printed ++ es⟩)
  quiet : ∀ printed, exec quiet ⟨disk, printed⟩ = (result, ⟨disk', printed ++ es.filter fun e => !e.isChatter⟩)
  chatter : (es.filter Event.isChatter).Subperm said
  complete : ∀ a, result = .ok a → (es.filter Event.isChatter).Perm said

/-- A quiet job echoes a loud one from a disk. -/
def Echoes (quiet loud : Job α) (disk : FileSystem) (said : List Event) : Prop :=
  ∃ result disk' es, Echo quiet loud disk said result disk' es

/-- A job that prints nothing and does not look at what has been printed echoes itself. -/
theorem echo_of_exec {job : Job α} (h : ∀ printed, exec job ⟨disk, printed⟩ = (result, ⟨disk', printed⟩)) :
    Echo job job disk [] result disk' [] := by
  refine ⟨fun printed => ?_, fun printed => ?_, List.nil_subperm, fun _ _ => .nil⟩
  · rw [h, List.append_nil]
  · rw [h, List.filter_nil, List.append_nil]

/-- What only asks echoes itself. -/
theorem Asks.echoes {job : Job α} (h : Asks job) (disk : FileSystem) : Echoes job job disk [] := by
  obtain ⟨answer, hanswer⟩ := h
  exact ⟨answer disk, disk, [], echo_of_exec fun printed => hanswer ⟨disk, printed⟩⟩

theorem echoes_pure (a : α) (disk : FileSystem) : Echoes (pure a) (pure a) disk [] := (asks_pure a).echoes disk

theorem echoes_throw (f : Fault) (disk : FileSystem) : Echoes (throw f : Job α) (throw f) disk [] :=
  (asks_throw f).echoes disk

theorem echoes_change (operation : FileSystem → Except Refusal FileSystem) (fault : Refusal → Fault)
    (disk : FileSystem) : Echoes (change operation fault) (change operation fault) disk [] := by
  cases hcase : operation disk with
  | ok disk' => exact ⟨.ok (), disk', [], echo_of_exec fun printed => by rw [exec_change]; simp only [hcase]⟩
  | error r => exact ⟨.error (fault r), disk, [], echo_of_exec fun printed => by rw [exec_change]; simp only [hcase]⟩

/-- What is no chatter is printed by both. -/
theorem echo_printAll (h : ∀ e ∈ es, e.isChatter = false) (disk : FileSystem) :
    Echo (printAll es) (printAll es) disk [] (.ok ()) disk es := by
  have hall : es.filter (fun e => !e.isChatter) = es := List.filter_eq_self.mpr fun e he => by simp [h e he]
  have hnone : es.filter Event.isChatter = [] := List.filter_eq_nil_iff.mpr fun e he => by simp [h e he]
  refine ⟨fun printed => rfl, fun printed => ?_, ?_, fun _ _ => hnone ▸ .nil⟩
  · rw [hall]
    rfl
  · exact hnone ▸ .refl []

theorem echoes_printAll (h : ∀ e ∈ es, e.isChatter = false) (disk : FileSystem) :
    Echoes (printAll es) (printAll es) disk [] := ⟨.ok (), disk, es, echo_printAll h disk⟩

/-- Chatter is printed by the loud job, where the quiet one does nothing. -/
theorem echo_chatter {e : Event} (h : e.isChatter = true) (disk : FileSystem) :
    Echo (pure ()) (print e) disk [e] (.ok ()) disk [e] := by
  have hnone : [e].filter (fun e => !e.isChatter) = [] := by simp [h]
  have hall : [e].filter Event.isChatter = [e] := by simp [h]
  refine ⟨fun printed => rfl, fun printed => ?_, ?_, fun _ _ => ?_⟩
  · rw [exec_pure, hnone, List.append_nil]
  · rw [hall]
  · rw [hall]

section Bind

variable {quiet loud : Job α} {quietNext loudNext : α → Job β}

/-- Where both end with a fault, nothing more is said. -/
theorem Echo.bind_error {f : Fault} (h : Echo quiet loud disk said (.error f) disk' es) (more : List Event) :
    Echoes (quiet >>= quietNext) (loud >>= loudNext) disk (said ++ more) := by
  refine ⟨.error f, disk', es, fun printed => ?_, fun printed => ?_, ?_, nofun⟩
  · rw [exec_bind, h.loud]
  · rw [exec_bind, h.quiet]
  · exact h.chatter.trans (List.sublist_append_left _ _).subperm

/-- Where both have a result, they go on from there. -/
theorem Echo.bind {a : α} {es' : List Event} {disk'' : FileSystem} {result : Except Fault β}
    (h : Echo quiet loud disk said (.ok a) disk' es)
    (h' : Echo (quietNext a) (loudNext a) disk' more result disk'' es') :
    Echo (quiet >>= quietNext) (loud >>= loudNext) disk (said ++ more) result disk'' (es ++ es') := by
  have hsaid := h.complete a rfl
  refine ⟨fun printed => ?_, fun printed => ?_, ?_, fun b hb => ?_⟩
  · rw [exec_bind, h.loud]
    dsimp only
    rw [h'.loud, List.append_assoc]
  · rw [exec_bind, h.quiet]
    dsimp only
    rw [h'.quiet, List.filter_append, List.append_assoc]
  · rw [List.filter_append]
    exact hsaid.subperm.append h'.chatter
  · rw [List.filter_append]
    exact hsaid.append (h'.complete b hb)

theorem Echo.bind_ok {a : α} (h : Echo quiet loud disk said (.ok a) disk' es)
    (hn : Echoes (quietNext a) (loudNext a) disk' more) :
    Echoes (quiet >>= quietNext) (loud >>= loudNext) disk (said ++ more) := by
  obtain ⟨result, disk'', es', h'⟩ := hn
  exact ⟨result, disk'', es ++ es', h.bind h'⟩

/-- **Jobs that follow each other echo if each of them does**: a fault of the first keeps the second quiet in both. -/
theorem Echoes.bind (h : Echoes quiet loud disk said)
    (hn : ∀ a disk', Echoes (quietNext a) (loudNext a) disk' more) :
    Echoes (quiet >>= quietNext) (loud >>= loudNext) disk (said ++ more) := by
  obtain ⟨result, disk', es, h⟩ := h
  cases result with
  | error f => exact h.bind_error more
  | ok a => exact h.bind_ok (hn a disk')

end Bind

/-! ## Elementary jobs -/

/-- A job that starts with a look at the disk alone. -/
theorem echoes_get {next : RunState → Job α} (hblind : ∀ printed, next ⟨disk, printed⟩ = next ⟨disk, []⟩)
    (h : Echoes (next ⟨disk, []⟩) (next ⟨disk, []⟩) disk said) : Echoes (get >>= next) (get >>= next) disk said := by
  have hexec : ∀ printed, exec (get >>= next) ⟨disk, printed⟩ = exec (next ⟨disk, []⟩) ⟨disk, printed⟩ := by
    intro printed
    rw [← hblind printed]
    rfl
  obtain ⟨result, disk', es, h⟩ := h
  refine ⟨result, disk', es, fun printed => ?_, fun printed => ?_, h.chatter, h.complete⟩
  · rw [hexec, h.loud]
  · rw [hexec, h.quiet]

theorem echoes_makeFolder (path : Path) (reuse : Bool) (fault : Refusal → Fault) (disk : FileSystem) :
    Echoes (makeFolder path reuse fault) (makeFolder path reuse fault) disk [] := by
  refine echoes_get (fun _ => rfl) ?_
  dsimp only
  split
  · exact echoes_change _ _ disk
  · exact echoes_throw _ disk
  · split
    · split
      · exact echoes_pure () disk
      · exact echoes_throw _ disk
      · exact echoes_throw _ disk
    · exact echoes_throw _ disk

/-- To make a folder with those on the way to it, by recursion on how many they can be. -/
theorem echoes_makeFoldersTo (fuel : Nat) (path : Path) (disk : FileSystem) :
    Echoes (makeFoldersTo fuel path) (makeFoldersTo fuel path) disk [] := by
  induction fuel generalizing path disk with
  | zero => exact echoes_makeFolder path true _ disk
  | succ fuel ih =>
    refine echoes_get (fun _ => rfl) ?_
    split
    · split
      · exact echoes_throw _ disk
      · exact (ih path.parent disk).bind fun _ disk' => echoes_makeFolder path true _ disk'
    · exact echoes_makeFolder path true _ disk

theorem echoes_saveText (path : Path) (text : String) (disk : FileSystem) :
    Echoes (saveText path text) (saveText path text) disk [] :=
  (echoes_makeFoldersTo _ _ disk).bind fun _ disk' => echoes_change _ _ disk'

theorem echoes_writeManifest (m : Manifest) (path : Path) (disk : FileSystem) :
    Echoes (writeManifest m path) (writeManifest m path) disk [] := by
  unfold writeManifest
  split
  · exact echoes_throw _ disk
  · exact (echoes_saveText path m.text disk).bind fun _ disk' => echoes_pure path disk'

theorem asks_requirePath (folder : Path) (name : CodePoints) : Asks (requirePath folder name) := by
  unfold requirePath
  split
  · exact asks_pure ()
  · exact asks_throw _

theorem echoes_openFile (path : Path) (fault : Refusal → Fault) (disk : FileSystem) :
    Echoes (openFile path fault) (openFile path fault) disk [] := by
  cases hcase : disk.openFile path with
  | ok opened =>
    exact ⟨.ok opened.2, opened.1, [], echo_of_exec fun printed => by rw [exec_openFile]; simp only [hcase]⟩
  | error r => exact ⟨.error (fault r), disk, [], echo_of_exec fun printed => by rw [exec_openFile]; simp only [hcase]⟩

theorem echoes_overwrite (l : Location) (text : String) (disk : FileSystem) :
    Echoes (overwrite l text) (overwrite l text) disk [] :=
  ⟨.ok (), disk.overwrite l (Utf8.encode text.toList), [], echo_of_exec fun _ => exec_overwrite l text _⟩

end Job

/-! ## Announcements -/

namespace Generator

variable (g : Generator)

/-- The same run, with its progress told. -/
def loud : Generator := { g with quiet := false }

/-- The same run, without a word on its progress. -/
def hushed : Generator := { g with quiet := true }

end Generator

namespace Settings

variable (s : Settings)

/-- The progress line that announces the template of a file, if it has one. -/
def announcedTemplate (f : File) : List Progress :=
  if f.templateId = "" then [] else [.creatingFile (s.templatePath f)]

/-- The progress lines that announce a task: one for a folder, and one for a template unless the run is for show. -/
def announced : Task → List Progress
  | .folder parent name => [.creatingFolder (parent / s.folderName name)]
  | .file _ f => if s.dryRun then [] else s.announcedTemplate f

end Settings

namespace Generator

open Job

variable {g : Generator}

theorem echo_report (p : Progress) (disk : FileSystem) :
    Echo (g.hushed.report p) (g.loud.report p) disk [.progress p] (.ok ()) disk [.progress p] := echo_chatter rfl disk

/-! What an act asks for first does not depend on whether the run is quiet. -/

theorem asks_requireFolder (g : Generator) (parent : Path) (name : String) : (g.requireFolder parent name).Asks := by
  unfold requireFolder
  split
  · exact asks_pure ()
  · exact asks_requirePath _ _

theorem asks_requireName (g : Generator) (folder : Path) (f : File) : (g.requireName folder f).Asks := by
  unfold requireName
  split
  · exact asks_pure ()
  · exact asks_requirePath _ _

theorem asks_requireText (g : Generator) (f : File) (body : String) : (g.requireText f body).Asks := by
  unfold requireText
  split
  · exact asks_pure ()
  · split
    · exact asks_pure ()
    · exact asks_throw _

/-- **The first act of a task announces it**, and does not fail. -/
theorem echo_act_new (t : Task) (disk : FileSystem) :
    ∃ stage es, Echo (g.hushed.act t .new) (g.loud.act t .new) disk ((g.settings.announced t).map .progress) (.ok stage)
      disk es := by
  cases t with
  | folder parent name =>
    let line : Progress := .creatingFolder (parent / g.settings.folderName name)
    have hreport := echo_report (g := g) line disk
    cases hdry : g.settings.dryRun with
    | true =>
      refine ⟨.made (.ofFolder (parent / g.settings.folderName name)), [.progress line] ++ [], hreport.bind ?_⟩
      simp only [hushed, loud, hdry, if_true]
      exact echo_of_exec fun _ => rfl
    | false =>
      refine ⟨.announced, [.progress line] ++ [], hreport.bind ?_⟩
      simp only [hushed, loud, hdry, Bool.false_eq_true, if_false]
      exact echo_of_exec fun _ => rfl
  | file folder f =>
    unfold act actOnFile Settings.announced Settings.announcedTemplate
    simp only [hushed, loud]
    by_cases hdry : g.settings.dryRun = true
    · simp only [hdry, if_true]
      exact ⟨_, [], echo_of_exec fun _ => rfl⟩
    · simp only [hdry, Bool.false_eq_true, if_false]
      by_cases hid : f.templateId = ""
      · simp only [hid, if_true]
        exact ⟨_, [], echo_of_exec fun _ => rfl⟩
      · simp only [hid, if_false]
        let line : Progress := .creatingFile (g.settings.templatePath f)
        have hreport := echo_report (g := g) line disk
        exact ⟨.announced, [.progress line] ++ [], hreport.bind (echo_of_exec fun _ => rfl)⟩

/-- The other acts say nothing. -/
theorem echoes_act {t : Task} {stage : Stage t} (hnew : stage.isNew = false) (disk : FileSystem) :
    Echoes (g.hushed.act t stage) (g.loud.act t stage) disk [] := by
  cases t with
  | folder parent name =>
    cases stage with
    | new => cases hnew
    | announced =>
      refine ((asks_requireFolder g.loud parent name).echoes disk).bind fun _ disk₁ => ?_
      exact (Job.echoes_makeFolder _ _ _ disk₁).bind fun _ disk₂ => echoes_pure _ disk₂
    | made r | stopped f => exact echoes_pure _ disk
  | file folder f =>
    cases stage with
    | new => cases hnew
    | announced => exact ((asks_readText _ _).echoes disk).bind fun body disk₁ => echoes_pure _ disk₁
    | read body =>
      refine ((asks_requireName g.loud folder f).echoes disk).bind fun _ disk₁ => ?_
      exact (echoes_openFile _ _ disk₁).bind fun l disk₂ => echoes_pure _ disk₂
    | opened body l =>
      refine ((asks_requireText g.loud f body).echoes disk).bind fun _ disk₁ => ?_
      exact (echoes_overwrite _ _ disk₁).bind fun _ disk₂ => echoes_pure _ disk₂
    | made r | stopped f => exact echoes_pure _ disk

end Generator

/-- The progress lines that announce a part, if they are still to be printed. -/
def Settings.unsaidOf (s : Settings) (p : Part) : List Progress := if p.stage.isNew then s.announced p.task else []

/-- The progress lines of work that are still to be printed. -/
def Settings.unsaid (s : Settings) (w : Work) : List Progress := w.parts.flatMap s.unsaidOf

theorem Settings.unsaid_work (s : Settings) (o : Outline) : s.unsaid (s.work o) = (s.plan o).flatMap s.announced := by
  rw [unsaid, parts_work, List.flatMap_map]
  exact List.flatMap_congr fun _ _ => rfl

theorem Settings.unsaid_of_isMade {w : Work} (s : Settings) (h : w.isMade = true) : s.unsaid w = [] := by
  refine List.flatMap_eq_nil_iff.mpr fun p hp => if_neg ?_
  have hmade : p.stage.report?.isSome = true := List.all_eq_true.mp h p hp
  obtain ⟨t, stage⟩ := p
  cases stage <;> simp_all [Stage.report?, Stage.isNew]

/-- What is printed in a turn is no longer to be printed. -/
theorem Work.Turn.unsaid {t : Task} {stage stage' : Stage t} {w w' : Work} (h : Turn stage stage' w w')
    (hnew : stage'.isNew = false) (s : Settings) : (s.unsaidOf ⟨t, stage⟩ ++ s.unsaid w').Perm (s.unsaid w) := by
  obtain ⟨before, after, hold, hparts⟩ := h.parts
  have hnone : s.unsaidOf ⟨t, stage'⟩ = [] := by simp [Settings.unsaidOf, hnew]
  rw [Settings.unsaid, Settings.unsaid, hold, hparts]
  simp only [List.flatMap_append, List.flatMap_cons, hnone, List.nil_append, ← List.append_assoc]
  exact List.perm_append_comm.append_right _

namespace Generator

open Job

variable {g : Generator}

theorem isNew_outcomeOf {p : Part} (hahead : p.stage.ahead ≠ 0) (s : RunState) : (g.outcomeOf p s).isNew = false := by
  have hle : p.stage.ahead ≤ 4 := by
    obtain ⟨t, stage⟩ := p
    cases stage <;> simp [Stage.ahead]
  rw [← Bool.not_eq_true]
  intro hnew
  have hfour := Stage.ahead_of_isNew hnew
  rw [outcomeOf] at hfour
  split at hfour
  · next stage hok =>
    have hless := (act_yields hahead s stage _ (by rw [← hok])).1
    omega
  · cases hfour

/-- A part goes on in a quiet run as in the loud one, and what announces it is said. -/
theorem echo_actOn {p : Part} (hahead : p.stage.ahead ≠ 0) (disk : FileSystem) :
    ∃ stage disk' es, stage.isNew = false ∧
      Echo (g.hushed.actOn p) (g.loud.actOn p) disk ((g.settings.unsaidOf p).map .progress) (.ok ⟨p.task, stage⟩)
        disk' es := by
  obtain ⟨result, disk', es, h, hsaid⟩ : ∃ result disk' es,
      Echo (g.hushed.act p.task p.stage) (g.loud.act p.task p.stage) disk ((g.settings.unsaidOf p).map .progress) result
        disk' es ∧ (es.filter Event.isChatter).Perm ((g.settings.unsaidOf p).map .progress) := by
    obtain ⟨t, stage⟩ := p
    cases hnew : stage.isNew with
    | true =>
      have hstage : stage = .new := by cases stage <;> first | rfl | cases hnew
      obtain ⟨stage', es, h⟩ := echo_act_new (g := g) t disk
      subst hstage
      exact ⟨.ok stage', disk, es, h, h.complete stage' rfl⟩
    | false =>
      have hnone : g.settings.unsaidOf ⟨t, stage⟩ = [] := by simp [Settings.unsaidOf, hnew]
      obtain ⟨result, disk', es, h⟩ := echoes_act (g := g) hnew disk
      rw [hnone]
      exact ⟨result, disk', es, h, List.subperm_nil.mp h.chatter ▸ .nil⟩
  have houtcome (g' : Generator) {printed : List Event} {s : RunState}
      (hg : Job.exec (g'.act p.task p.stage) ⟨disk, printed⟩ = (result, s)) :
      Job.exec (g'.actOn p) ⟨disk, printed⟩ = (.ok ⟨p.task, g.loud.outcomeOf p ⟨disk, []⟩⟩, s) := by
    rw [exec_actOn, outcomeOf, outcomeOf, hg, h.loud]
  exact ⟨g.loud.outcomeOf p ⟨disk, []⟩, disk', es, isNew_outcomeOf hahead _,
    fun printed => houtcome g.loud (h.loud printed), fun printed => houtcome g.hushed (h.quiet printed), h.chatter,
    fun _ _ => hsaid⟩

/-- **Work goes on in a quiet run as in the loud one**, whatever the order, and what is said is what was to be said and
    is no longer. -/
theorem echo_goOn (σ : Scheduler) (fuel : Nat) (w : Work) (disk : FileSystem) :
    ∃ w' disk' es, (∀ printed, Job.exec (g.loud.goOn σ fuel w) ⟨disk, printed⟩ = (.ok w', ⟨disk', printed ++ es⟩)) ∧
      (∀ printed, Job.exec (g.hushed.goOn σ fuel w) ⟨disk, printed⟩ =
        (.ok w', ⟨disk', printed ++ es.filter fun e => !e.isChatter⟩)) ∧
      (es.filter Event.isChatter ++ (g.settings.unsaid w').map Event.progress).Perm
        ((g.settings.unsaid w).map Event.progress) := by
  induction fuel generalizing w disk with
  | zero => exact ⟨w, disk, [], fun _ => by simp [goOn], fun _ => by simp [goOn], .refl _⟩
  | succ fuel ih =>
    cases hgo : σ.goesOn w with
    | false => exact ⟨w, disk, [], fun _ => by simp [goOn, hgo], fun _ => by simp [goOn, hgo], .refl _⟩
    | true =>
      have hcan : w.canGo = true := by
        rw [Scheduler.goesOn, Bool.and_eq_true] at hgo
        exact hgo.1
      obtain ⟨t, stage, put, hahead, hturn, hadvance⟩ := exists_turn hcan (σ.next w)
      obtain ⟨stage', disk₁, es₁, hnew, hact⟩ := echo_actOn (g := g) (p := ⟨t, stage⟩) hahead disk
      obtain ⟨w', disk', es, hloud, hquiet, hperm⟩ := ih (put ⟨t, stage'⟩) disk₁
      refine ⟨w', disk', es₁ ++ es, fun printed => ?_, fun printed => ?_, ?_⟩
      · simp only [goOn, hgo, if_true, hadvance, ← bind_pure_comp, bind_assoc, pure_bind]
        rw [exec_bind, hact.loud]
        dsimp only
        rw [hloud, List.append_assoc]
      · simp only [goOn, hgo, if_true, hadvance, ← bind_pure_comp, bind_assoc, pure_bind]
        rw [exec_bind, hact.quiet]
        dsimp only
        rw [hquiet, List.filter_append, List.append_assoc]
      · -- what the act has said is no longer unsaid, and the rest says what is left
        have hfirst := hact.complete _ rfl
        have hrest := ((hturn stage').unsaid hnew g.settings).map Event.progress
        rw [List.map_append] at hrest
        rw [List.filter_append, List.append_assoc]
        exact (hfirst.append hperm).trans hrest

end Generator

namespace Settings

variable (s : Settings)

/-- The progress lines for a folder that is met on a walk: one for itself and, unless the run is for show, one for each
    of its files that has a template. -/
def announcedAt (p : List String × Folder) : List Progress :=
  .creatingFolder (s.folderPath p.1) ::
    if s.dryRun then []
    else (p.2.files.filter fun f => f.templateId ≠ "").map fun f => .creatingFile (s.templatePath f)

theorem flatMap_announced_files (folder : Path) (files : List File) :
    (files.map (Task.file folder)).flatMap s.announced =
      if s.dryRun then []
      else (files.filter fun f => f.templateId ≠ "").map fun f => .creatingFile (s.templatePath f) := by
  rw [List.flatMap_map]
  split
  · next hdry =>
    rw [List.flatMap_eq_nil_iff]
    intro f _
    rw [announced, if_pos hdry]
  · next hdry =>
    induction files with
    | nil => rfl
    | cons f files ih =>
      rw [List.flatMap_cons, ih, announced, if_neg hdry, announcedTemplate]
      by_cases hid : f.templateId = "" <;> simp [hid]

/-- The progress lines of a plan follow the walk. -/
theorem flatMap_announced_plan (o : Outline) : (s.plan o).flatMap s.announced = o.walk.flatMap s.announcedAt := by
  rw [plan_eq_flatMap_walk, List.flatMap_assoc]
  refine List.flatMap_congr fun p hp => ?_
  have hpath : s.folderPath p.1.dropLast / s.folderName p.2.name = s.folderPath p.1 := by
    rw [← folderPath_concat, ← Folder.names_of_mem_walkAll o.folders hp]
  rw [tasksAt, List.flatMap_cons, announced, flatMap_announced_files, hpath, announcedAt, List.singleton_append]

end Settings

/-! ## Whole runs -/

/-- What is no chatter is displayed by both, or by neither. -/
theorem Host.echoes_displayAll (host : Host) {es : List Event} (h : ∀ e ∈ es, e.isChatter = false) (disk : FileSystem) :
    Job.Echoes (host.displayAll es) (host.displayAll es) disk [] := by
  induction es generalizing disk with
  | nil => exact Job.echoes_pure () disk
  | cons e es ih =>
    have hfirst : ∀ e' ∈ [e], e'.isChatter = false := by simpa using h e List.mem_cons_self
    have hdisplay : Job.Echoes (host.display e) (host.display e) disk [] := by
      unfold display
      split
      · exact Job.echoes_printAll hfirst disk
      · exact Job.echoes_throw _ disk
    exact hdisplay.bind fun _ disk₁ => ih (fun e' he' => h e' (List.mem_cons_of_mem e he')) disk₁

namespace Generator

open Job

variable {g : Generator}

/-- **A generation in whatever order echoes**, and says a progress line for each folder and each template. -/
theorem echoes_generateBy (σ : Scheduler) (o : Outline) (disk : FileSystem) :
    Echoes (g.hushed.generateBy σ o) (g.loud.generateBy σ o) disk
      ((o.walk.flatMap g.settings.announcedAt).map .progress) := by
  obtain ⟨w, disk', es, hloud, hquiet, hperm⟩ := echo_goOn (g := g) σ (g.settings.work o).ahead (g.settings.work o) disk
  rw [Settings.unsaid_work, Settings.flatMap_announced_plan] at hperm
  have hrun (g' : Generator) (hg : g'.settings = g.settings) {printed : List Event} {s : RunState}
      (hgo : Job.exec (g'.goOn σ (g.settings.work o).ahead (g.settings.work o)) ⟨disk, printed⟩ = (.ok w, s)) :
      Job.exec (g'.generateBy σ o) ⟨disk, printed⟩ = Job.exec (conclude σ w) s := by
    rw [generateBy, hg, exec_bind, hgo]
  cases hfaults : w.faults with
  | nil =>
    -- nothing has stopped, so everything has been made and announced
    have hmade : w.isMade = true := by
      obtain ⟨w', s', hgo, -, hend⟩ := g.loud.steps_of_goOn (σ := σ) (Nat.le_refl (g.settings.work o).ahead) ⟨disk, []⟩
      rw [hloud, Prod.mk.injEq, Except.ok.injEq] at hgo
      obtain ⟨rfl, -⟩ := hgo
      exact Work.isMade_of_not_canGo (by simpa [Scheduler.goesOn, hfaults] using hend) hfaults
    rw [Settings.unsaid_of_isMade _ hmade, List.map_nil, List.append_nil] at hperm
    refine ⟨.ok w.report, disk', es, fun printed => ?_, fun printed => ?_, hperm.subperm, fun _ _ => hperm⟩
    · rw [hrun g.loud rfl (hloud printed), conclude_of_faults_nil hfaults, exec_pure]
    · rw [hrun g.hushed rfl (hquiet printed), conclude_of_faults_nil hfaults, exec_pure]
  | cons f fs =>
    refine ⟨.error ((f :: fs).getD (σ.picks w) f), disk', es, fun printed => ?_, fun printed => ?_, ?_, fun a ha => ?_⟩
    · rw [hrun g.loud rfl (hloud printed), conclude, hfaults, exec_throw]
    · rw [hrun g.hushed rfl (hquiet printed), conclude, hfaults, exec_throw]
    · exact (List.sublist_append_left _ _).subperm.trans hperm.subperm
    · cases ha

/-- The announcement of a step is no chatter. -/
theorem not_isChatter_stepHeader (step : Int) (name : String) : ∀ e ∈ stepHeader step name, e.isChatter = false := by
  simp [stepHeader, Event.isChatter]

theorem not_isChatter_warnings {α : Type} {message : α → String} (xs : List α) :
    ∀ e ∈ xs.map fun x => warning (message x), e.isChatter = false := by
  intro e he
  obtain ⟨x, -, rfl⟩ := List.mem_map.mp he
  rfl

theorem echoes_produceOn (host : Host) (o : Outline) (disk : FileSystem) :
    Echoes (g.hushed.produceOn host o) (g.loud.produceOn host o) disk
      ((o.walk.flatMap g.settings.announcedAt).map .progress) := by
  rw [← List.append_nil (List.map _ _)]
  refine (echoes_printAll (not_isChatter_warnings _) disk).bind fun _ disk₁ => ?_
  refine (echoes_printAll (not_isChatter_stepHeader 2 _) disk₁).bind fun _ disk₂ => ?_
  refine (echoes_generateBy host.scheduler o disk₂).bind fun r disk₃ => ?_
  refine (host.echoes_displayAll (not_isChatter_warnings _) disk₃).bind fun _ disk₄ => ?_
  refine (echoes_printAll (not_isChatter_stepHeader 3 _) disk₄).bind fun _ disk₅ => ?_
  show Echoes (if g.settings.dryRun then _ else _) (if g.settings.dryRun then _ else _) disk₅ []
  split
  · exact (echoes_pure none disk₅).bind fun _ disk₆ => echoes_pure _ disk₆
  · rw [← bind_pure_comp]
    have hwrite := (echoes_writeManifest (.ofOutline g.settings o) g.settings.resolvedManifestPath disk₅).bind
      fun path disk₆ => echoes_pure (some path) disk₆
    exact hwrite.bind fun _ disk₆ => echoes_pure _ disk₆

/-- The chatter of a run once it has read its outline: the tree, and the progress lines for the folders and the files.
    If the outline cannot be read, there is none. -/
def chatter (g : Generator) : Except Fault Outline → List Event
  | .ok o => .tree (o.labels g.settings.inputPath.text) :: (o.walk.flatMap g.settings.announcedAt).map .progress
  | .error _ => []

/-- How the loud run from a state and the quiet one go on a host: to the same result or the same fault, with the same
    disk, and the quiet one prints what the loud one does, in order, but for the chatter. A loud run that has a result
    has printed all its chatter, each line of it once, and one that ends with a fault a part of it. -/
structure Hushes (g : Generator) (host : Host) (s : RunState) (result : Except Fault Summary) (disk : FileSystem)
    (es : List Event) : Prop where
  loud : Job.exec (g.loud.runOn host) s = (result, ⟨disk, s.printed ++ es⟩)
  quiet : Job.exec (g.hushed.runOn host) s = (result, ⟨disk, s.printed ++ es.filter fun e => !e.isChatter⟩)
  said : ∀ answer, Job.exec (readOutline g.settings.inputPath.text) s = (answer, s) →
    (es.filter Event.isChatter).Subperm (g.chatter answer)
  complete : ∀ m, result = .ok m → ∃ o, Job.exec (readOutline g.settings.inputPath.text) s = (.ok o, s) ∧
    (es.filter Event.isChatter).Perm (g.chatter (.ok o))

/-- Whether the console takes the tree of the outline that a run reads, if it reads one. -/
def TakesTree (g : Generator) (host : Host) (s : RunState) : Prop :=
  ∀ o, Job.exec (readOutline g.settings.inputPath.text) s = (.ok o, s) →
    host.objection? (.tree (o.labels g.settings.inputPath.text)) = none

/-- What is said in a run depends on whether the outline can be read. -/
theorem echoes_runOn {host : Host} {disk : FileSystem} {answer : Except Fault Outline}
    (htakes : ∀ o, answer = .ok o → host.objection? (.tree (o.labels g.settings.inputPath.text)) = none)
    (h : ∀ printed, Job.exec (readOutline g.settings.inputPath.text) ⟨disk, printed⟩ = (answer, ⟨disk, printed⟩)) :
    Echoes (g.hushed.runOn host) (g.loud.runOn host) disk (g.chatter answer) := by
  have hstart := echo_printAll (not_isChatter_stepHeader 1 "PARSE") disk
  have hread := echo_of_exec h
  refine hstart.bind_ok ?_
  cases answer with
  | error fault => exact hread.bind_error []
  | ok o =>
    refine hread.bind_ok ?_
    have hdisplay : Echo (g.hushed.displayOutline host o) (g.loud.displayOutline host o) disk
        [.tree (o.labels g.settings.inputPath.text)] (.ok ()) disk [.tree (o.labels g.settings.inputPath.text)] := by
      have hloud : g.loud.displayOutline host o = Job.print (.tree (o.labels g.settings.inputPath.text)) := by
        show host.display _ = _
        rw [Host.display, show g.loud.settings = g.settings from rfl, htakes o rfl]
      rw [hloud]
      exact echo_chatter rfl disk
    exact hdisplay.bind_ok (echoes_produceOn host o disk)

/-- **A quiet run does what the loud one does**, and prints the same but for the tree and the progress lines, in whatever
    order things are made, if the console takes the tree. -/
theorem hushes_runOn {host : Host} {s : RunState} (htakes : g.TakesTree host s) :
    ∃ result disk es, g.Hushes host s result disk es := by
  obtain ⟨answer, hanswer⟩ := asks_readOutline g.settings.inputPath.text
  have hblind : ∀ printed, Job.exec (readOutline g.settings.inputPath.text) ⟨s.disk, printed⟩ =
      (answer s.disk, ⟨s.disk, printed⟩) := fun printed => hanswer ⟨s.disk, printed⟩
  have htree : ∀ o, answer s.disk = .ok o → host.objection? (.tree (o.labels g.settings.inputPath.text)) = none :=
    fun o ho => htakes o (by rw [hanswer, ho])
  obtain ⟨result, disk, es, h⟩ := echoes_runOn htree hblind
  refine ⟨result, disk, es, h.loud s.printed, h.quiet s.printed, fun answer' hread => ?_, fun m hm => ?_⟩
  · rw [hanswer, Prod.mk.injEq] at hread
    exact hread.1 ▸ h.chatter
  · -- a run with a result has read its outline
    have hrun := h.loud s.printed
    rw [hm, runOn] at hrun
    obtain ⟨_, s₁, hheader, hrest⟩ := exec_bind_eq_ok hrun
    obtain ⟨o, s₂, hread, -⟩ := exec_bind_eq_ok hrest
    cases hheader
    have hok : answer s.disk = .ok o := (Prod.mk.inj ((hanswer ⟨s.disk, _⟩).symm.trans hread)).1
    exact ⟨o, by rw [hanswer, hok], hok ▸ h.complete m hm⟩

/-- What a console has against a title with a closing tag in it that closes nothing. -/
def strayTag? : Event → Option String
  | .tree (.node label _) =>
    if label = tagged "bold" "notes[/old]/outline.txt" then
      some "closing tag '[/old]' at position 11 doesn't match any open tag"
    else none
  | _ => none

/-- A folder and its subfolder, each with a file, that are made in step with each other and displayed by a console that
    takes their tree. -/
theorem hushes_runOn_in_step :
    let host : Host := { scheduler := .inStep, objection? := strayTag? }
    let g : Generator := { settings := { templatesDir := .ofString "t", inputPath := .ofString "o" } }
    let st : RunState :=
      { disk := { entries := [(["t"], .folder), (["t", "T"], .file [0x54]),
          (["o"], .file (Utf8.encode "R:\n\t[T]x\n\tb:\n\t\t[T]y".toList))] } }
    g.TakesTree host st ∧ ∃ m disk es, g.Hushes host st (.ok m) disk es ∧ m.files = 2 := by
  intro host g st
  have htitle : tagged "bold" g.settings.inputPath.text ≠ tagged "bold" "notes[/old]/outline.txt" := by
    decide +kernel +revert
  have htakes : g.TakesTree host st := by
    intro o _
    rw [show host.objection? = strayTag? from rfl, Outline.labels, strayTag?, if_neg htitle]
  have hcount : (Job.exec (g.loud.runOn host) st).1.map Summary.files = .ok 2 := by
    clear htakes htitle
    decide +kernel +revert
  obtain ⟨result, disk, es, h⟩ := hushes_runOn htakes
  rw [h.loud] at hcount
  cases result with
  | error f => cases hcount
  | ok m => exact ⟨htakes, m, disk, es, h, Except.ok.inj hcount⟩

/-- **Not every console takes the title of a tree**, since it is not marked up as the labels are: for an outline in a
    folder whose name looks like a closing tag, the loud run ends with a fault where the quiet one has a result. -/
theorem runOn_fails_at_title :
    let host : Host := { objection? := strayTag? }
    let g : Generator := { settings := { inputPath := .ofString "notes[/old]/outline.txt" } }
    let st : RunState :=
      { disk := { entries := [(["notes["], .folder), (["notes[", "old]"], .folder),
          (["notes[", "old]", "outline.txt"], .file (Utf8.encode "R:".toList))] } }
    (Job.exec (g.loud.runOn host) st).1 =
        .error (.markup "closing tag '[/old]' at position 11 doesn't match any open tag") ∧
      (Job.exec (g.hushed.runOn host) st).1.map Summary.folders = .ok 1 := by
  intro host g st
  constructor
  · decide +kernel +revert
  · decide +kernel +revert

end Generator

end Stencil
