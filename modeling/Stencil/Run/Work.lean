import Stencil.Run.Generation

/-!
# `Stencil.Run.Work` — making folders and files side by side

`generate` makes everything in the order of the outline. That is one order of many: the files of a folder are made side
by side, and so are its subfolders, and what goes on first is not up to the program.

## Contents
- **Tasks.** A `Task` is one folder or one file to make.
- **Stages.** How far a task has come. A folder is announced and made. A file has its template announced and read, is
  opened, which empties it, and is written.
- **Work.** The tasks of an outline with their stages, and which of them wait for others: those of a folder for the
  folder itself, those of its subfolders for its files, and those of a root folder for the root folders before it.
- **Acts.** `act` takes a task to its next stage, `advance` does so with one of the tasks that need not wait.
- **Schedulers.** A `Scheduler` decides which task that is. If a task has stopped, it also decides how long the others go
  on, and whose fault is that of the run.
- **Runs.** `generateBy` makes what an outline describes as a scheduler wants it.

A scheduler may do more than the program will: a part that waits for its turn to write, or that is to be given up, may
still go on here. What holds for all schedulers holds for the program.
-/

namespace Stencil

open Console Text

/-! ## Tasks -/

/-- One thing to make: a folder with a name in a folder, or a file in a folder. -/
inductive Task where
  /-- A folder. -/
  | folder (parent : Path) (name : String)
  /-- A file. -/
  | file (folder : Path) (f : File)
  deriving DecidableEq

namespace Settings

variable (s : Settings)

/-- The path of what a task makes. -/
def pathOf : Task → Path
  | .folder parent name => parent / s.folderName name
  | .file folder f => folder / s.fileName f

end Settings

/-! ## Stages -/

/-- How far a task has come. -/
inductive Stage : Task → Type where
  /-- Nothing has been done. -/
  | new {t : Task} : Stage t
  /-- The folder, or the template of the file, has been announced. -/
  | announced {t : Task} : Stage t
  /-- The template has been read; it is empty if there is none. -/
  | read {folder : Path} {f : File} (body : String) : Stage (.file folder f)
  /-- The file has been opened, at a location. -/
  | opened {folder : Path} {f : File} (body : String) (l : Location) : Stage (.file folder f)
  /-- It has been made. -/
  | made {t : Task} (r : Report) : Stage t
  /-- It has not been made. -/
  | stopped {t : Task} (fault : Fault) : Stage t

namespace Stage

variable {t : Task}

/-- Whether nothing has been done. -/
def isNew : Stage t → Bool
  | .new => true
  | _ => false

/-- Whether a file has been opened and not yet written. -/
def isOpen : Stage t → Bool
  | .opened _ _ => true
  | _ => false

/-- What has been made. -/
def report? : Stage t → Option Report
  | .made r => some r
  | _ => none

/-- Why the task has stopped. -/
def fault? : Stage t → Option Fault
  | .stopped f => some f
  | _ => none

/-- How many acts are ahead, at most. -/
def ahead : Stage t → Nat
  | .new => 4
  | .announced => 3
  | .read _ => 2
  | .opened _ _ => 1
  | _ => 0

end Stage

/-! ## Work -/

/-- A task at a stage. -/
structure Part where
  /-- The task. -/
  task : Task
  /-- The stage. -/
  stage : Stage task

/-- Work to do, being done, or done. -/
inductive Work where
  /-- No work. -/
  | nothing
  /-- A single task. -/
  | part (p : Part)
  /-- The second one starts when the first one has been made. -/
  | seq (first second : Work)
  /-- The second one starts when nothing of the first one can go on. -/
  | queue (first second : Work)
  /-- Both start at once. -/
  | par (left right : Work)

namespace Work

/-- The parts, in the order of the outline. -/
def parts : Work → List Part
  | .nothing => []
  | .part p => [p]
  | .seq v w => v.parts ++ w.parts
  | .queue v w => v.parts ++ w.parts
  | .par v w => v.parts ++ w.parts

/-- The tasks, in the order of the outline. -/
def tasks (w : Work) : List Task := w.parts.map Part.task

/-- Whether everything has been made. -/
def isMade (w : Work) : Bool := w.parts.all fun p => p.stage.report?.isSome

/-- What has been made, in the order of the outline. -/
def report : Work → Report
  | .nothing => {}
  | .part p => p.stage.report?.getD {}
  | .seq v w => v.report.extend w.report
  | .queue v w => v.report.extend w.report
  | .par v w => v.report.extend w.report

/-- Why tasks have stopped. -/
def faults (w : Work) : List Fault := w.parts.filterMap fun p => p.stage.fault?

/-- Whether a file has been opened and not yet written. -/
def isOpen (w : Work) : Bool := w.parts.any fun p => p.stage.isOpen

/-- How many acts are ahead, at most. -/
def ahead : Work → Nat
  | .nothing => 0
  | .part p => p.stage.ahead
  | .seq v w => v.ahead + w.ahead
  | .queue v w => v.ahead + w.ahead
  | .par v w => v.ahead + w.ahead

/-- Whether some task need not wait. -/
def canGo : Work → Bool
  | .nothing => false
  | .part p => p.stage.ahead ≠ 0
  | .seq v w => v.canGo || v.isMade && w.canGo
  | .queue v w => v.canGo || w.canGo
  | .par v w => v.canGo || w.canGo

end Work

namespace Settings

variable (s : Settings)

/-- The work of several files in a folder. They are made side by side; if only one file is written at once, they
    queue. -/
def workOfFiles (folder : Path) : List File → Work
  | [] => .nothing
  | f :: fs =>
    let first := Work.part ⟨.file folder f, .new⟩
    if s.maxParallelWrites.val = 1 then .queue first (workOfFiles folder fs) else .par first (workOfFiles folder fs)

mutual

/-- The work of a folder: itself, then its files, then its subfolders. -/
def workOfFolder (parent : Path) : Folder → Work
  | .mk name files folders =>
    let path := parent / s.folderName name
    .seq (.part ⟨.folder parent name, .new⟩) (.seq (s.workOfFiles path files) (workOfFolders path folders))

/-- The work of several folders side by side. -/
def workOfFolders (parent : Path) : List Folder → Work
  | [] => .nothing
  | f :: fs => .par (workOfFolder parent f) (workOfFolders parent fs)

end

/-- The work of an outline: one root folder after the other. -/
def work (o : Outline) : Work :=
  o.folders.foldr (fun f w => .seq (s.workOfFolder s.outputRoot f) w) .nothing

end Settings

/-! ## Acts -/

namespace Generator

variable (g : Generator)

/-- Makes sure that the true name of a file makes a path. -/
def requireName (folder : Path) (f : File) : Job Unit :=
  if g.loose.isEmpty then return ()
  else Job.requirePath folder (Note.erasePoints (Placeholder.fillPoints (g.value? f.parameters) f.name))

/-- Makes sure that a file can hold its true content. -/
def requireText (f : File) (body : String) : Job Unit :=
  if g.loose.isEmpty then return ()
  else
    match (Placeholder.fillPoints (g.value? f.parameters) body).unwritable? CodePoints.isHalf with
    | none => return ()
    | some u => throw (.unwritable u)

/-- Takes the making of a folder to its next stage. -/
def actOnFolder (parent : Path) (name : String) : Stage (.folder parent name) → Job (Stage (.folder parent name))
  | .new => do
    let path := parent / g.settings.folderName name
    g.report (.creatingFolder path)
    if g.settings.dryRun then return .made (.ofFolder path) else return .announced
  | .announced => do
    let path := parent / g.settings.folderName name
    g.requireFolder parent name
    Job.makeFolder path g.settings.allowExisting (Fault.duringGeneration .createFolder · path)
    return .made (.ofFolder path)
  | stage => return stage

/-- Takes the making of a file to its next stage. -/
def actOnFile (folder : Path) (f : File) : Stage (.file folder f) → Job (Stage (.file folder f))
  | .new => do
    let path := folder / g.settings.fileName f
    if g.settings.dryRun then return .made (.ofFile path (Placeholder.keys path.name))
    else if f.templateId = "" then return .read ""
    else
      g.report (.creatingFile (g.settings.templatePath f))
      return .announced
  | .announced => do
    let template := g.settings.templatePath f
    let body ← Job.readText template (Fault.duringGeneration .readTemplate · template)
    return .read body
  | .read body => do
    let path := folder / g.settings.fileName f
    g.requireName folder f
    -- the file is empty from here on, whatever becomes of it
    let l ← Job.openFile path (Fault.duringGeneration .writeFile · path)
    return .opened body l
  | .opened body l => do
    let path := folder / g.settings.fileName f
    let content := Placeholder.fill (g.settings.scopeOf f) body
    g.requireText f body
    Job.overwrite l content
    return .made (.ofFile path (Placeholder.keys path.name ++ Placeholder.keys content))
  | stage => return stage

/-- Takes a task to its next stage. -/
def act : (t : Task) → Stage t → Job (Stage t)
  | .folder parent name => g.actOnFolder parent name
  | .file folder f => g.actOnFile folder f

/-- Takes a part to its next stage. A fault stops it. -/
def actOn (p : Part) : Job Part := do
  match ← Job.attempt (g.act p.task p.stage) with
  | .ok stage => return ⟨p.task, stage⟩
  | .error f => return ⟨p.task, .stopped f⟩

end Generator

/-- One of two sides. -/
inductive Side where
  /-- The first one. -/
  | left
  /-- The second one. -/
  | right
  deriving DecidableEq

namespace Generator

variable (g : Generator)

/-- Takes one part to its next stage. Where two sides go on at once, the list says which one it is, from the outside in;
    a side that cannot go on leaves its turn to the other one. -/
def advance : Work → List Side → Job Work
  | .nothing, _ => return .nothing
  | .part p, _ => .part <$> g.actOn p
  | .seq v w, sides => do
    -- the second one waits even for what has stopped, and then nothing is left to do here
    if v.canGo then return .seq (← advance v sides) w
    else if v.isMade then return .seq v (← advance w sides)
    else return .seq v w
  | .queue v w, sides => do
    if v.canGo then return .queue (← advance v sides) w else return .queue v (← advance w sides)
  | .par v w, sides => do
    -- the left one goes on, unless it is the turn of the right one and that one can
    if v.canGo && (sides.head? ≠ some .right || !w.canGo) then return .par (← advance v sides.tail) w
    else return .par v (← advance w sides.tail)

end Generator

/-! ## Schedulers -/

/-- Who decides in which order things are done. Work never comes to be the same twice, so there is nothing but the work
    to look at. -/
structure Scheduler where
  /-- Which side goes on, where two of them can. -/
  next : Work → List Side := fun _ => []
  /-- Whether a run of which a part has stopped is given up. -/
  givesUp : Work → Bool := fun _ => true
  /-- Which of the faults of the parts is the fault of the run. -/
  picks : Work → Nat := fun _ => 0

namespace Scheduler

/-- One after the other, in the order of the outline, up to the first fault. -/
def inTurn : Scheduler := {}

/-- Whether a run goes on. It is not given up while a file is open. -/
def goesOn (σ : Scheduler) (w : Work) : Bool := w.canGo && (w.faults.isEmpty || w.isOpen || !σ.givesUp w)

end Scheduler

/-! ## Runs -/

namespace Generator

variable (g : Generator) (σ : Scheduler)

/-- Goes on with work for as long as the scheduler wants it, and no longer than there is something to do. -/
def goOn : (fuel : Nat) → Work → Job Work
  | 0, w => return w
  | fuel + 1, w => do
    if σ.goesOn w then goOn fuel (← g.advance w (σ.next w)) else return w

/-- The report of work that has come to its end, or the fault. -/
def conclude (w : Work) : Job Report :=
  match w.faults with
  | [] => return w.report
  | f :: fs => throw ((f :: fs).getD (σ.picks w) f)

/-- Makes everything that an outline describes, in an order that the scheduler decides. -/
def generateBy (o : Outline) : Job Report := do
  let w := g.settings.work o
  conclude σ (← g.goOn σ w.ahead w)

end Generator

/-! ## Side by side -/

/-- How many acts it takes to do a task. -/
def Task.acts : Task → Nat
  | .folder _ _ => 2
  | .file _ f => if f.templateId = "" then 3 else 4

/-- How many acts a task has behind it, if it has not stopped. -/
def Part.age : Part → Nat
  | ⟨_, .new⟩ => 0
  | ⟨_, .announced⟩ => 1
  | ⟨t, stage⟩ => t.acts - stage.ahead

namespace Work

/-- How many acts lie behind the part that has come least far of those that can go on. -/
def age : Work → Nat
  | .nothing => 0
  | .part p => p.age
  | .seq v w => v.age + w.age
  | .queue v w => v.age + w.age
  | .par v w =>
    if v.canGo && w.canGo then min v.age w.age
    else if v.canGo then v.age
    else if w.canGo then w.age
    else max v.age w.age

/-- Leads to the part that has come least far. -/
def youngest : Work → List Side
  | .nothing => []
  | .part _ => []
  | .seq v w => if v.canGo then v.youngest else w.youngest
  | .queue v w => if v.canGo then v.youngest else w.youngest
  | .par v w =>
    if v.canGo && (!w.canGo || v.age ≤ w.age) then .left :: v.youngest else .right :: w.youngest

/-- Whether a folder is about to be made or a file to be opened. -/
def isUnderWay (w : Work) : Bool :=
  w.parts.any fun p =>
    match p with
    | ⟨.folder _ _, .announced⟩ => true
    | ⟨.file _ _, .read _⟩ => true
    | _ => false

end Work

/-- All in step with each other. When a part has stopped, what is under way is brought to its end. -/
def Scheduler.inStep : Scheduler where
  next w := w.youngest
  givesUp w := !w.isUnderWay

end Stencil
