import Stencil.Console.Event
import Stencil.Run.Fault
import Stencil.Text.Lines

/-!
# `Stencil.Run.Job` — effects of a run

## Contents
- **Jobs.** A `Job` works on a disk and prints. It ends with a result or a fault; what it did before
  a fault stays done.
- **Elementary jobs.** Printing, making a folder, reading and writing text.
- **Folders on the way.** `makeFolders` makes a folder with all that it lies in.
- **Laws.** What `exec` gives for a job that is put together from others, and for each elementary
  job.
-/

namespace Stencil

open Console Text

/-- A disk, and what has been printed. -/
structure RunState where
  /-- The folders and files. -/
  disk : FileSystem := {}
  /-- What has been printed, in order. -/
  printed : List Event := []
  deriving Inhabited

/-- A computation that works on a disk, prints, and may end with a fault. -/
abbrev Job (α : Type) := ExceptT Fault (StateM RunState) α

namespace Job

/-- Runs a job. -/
def exec {α : Type} (job : Job α) (s : RunState) : Except Fault α × RunState := ExceptT.run job s

/-- Prints an event. This is taken as never failing: an event to which a console may have an objection, since not all of
    its text is escaped, goes through `Host.display`. -/
def print (e : Event) : Job Unit := modify fun s => { s with printed := s.printed ++ [e] }

/-- Prints events. -/
def printAll (es : List Event) : Job Unit := modify fun s => { s with printed := s.printed ++ es }

/-- Runs a job to its result or its fault. -/
def attempt {α : Type} (job : Job α) : Job (Except Fault α) := ExceptT.lift (ExceptT.run job)

/-- A question to the disk. -/
def ask {α : Type} (question : FileSystem → Except Refusal α) (fault : Refusal → Fault) : Job α := do
  match question (← get).disk with
  | .ok a => return a
  | .error r => throw (fault r)

/-- A change of the disk. -/
def change (operation : FileSystem → Except Refusal FileSystem) (fault : Refusal → Fault) : Job Unit := do
  let s ← get
  match operation s.disk with
  | .ok disk => set { s with disk }
  | .error r => throw (fault r)

/-! ## Folders -/

/-- Makes a folder. If something is there already and `reuse` is set, a folder will do. -/
def makeFolder (path : Path) (reuse : Bool) (fault : Refusal → Fault) : Job Unit := do
  let disk := (← get).disk
  match disk.makeFolder path with
  | .ok _ => change (·.makeFolder path) fault
  | .error .nullCharacter => throw (fault .nullCharacter)
  | .error r =>
    if reuse then
      match disk.holdsFolder path with
      | .ok true => return ()
      | .ok false => throw (fault r)
      | .error r => throw (fault r)
    else throw (fault r)

/-- Makes a folder and, where they are missing, the folders on the way to it. -/
def makeFoldersTo : (fuel : Nat) → Path → Job Unit
  | 0, path => makeFolder path true (Fault.refused · path)
  | fuel + 1, path => do
    match (← get).disk.makeFolder path with
    | .error (.cause .notFound) =>
      if path.parent = path then throw (.system .notFound path)
      else
        makeFoldersTo fuel path.parent
        makeFolder path true (Fault.refused · path)
    | _ => makeFolder path true (Fault.refused · path)

/-- Makes a folder and the folders on the way to it; those that exist are used. -/
def makeFolders (path : Path) : Job Unit := makeFoldersTo path.parts.length path

/-! ## Texts -/

/-- The text of a file, with every line break as LF. -/
def readText (path : Path) (fault : Refusal → Fault) : Job String := do
  let bytes ← ask (·.readFile path) fault
  match Utf8.decode bytes with
  | .ok cs => return String.ofList (normalizeNewlines cs)
  | .error u => throw (.undecodable u)

/-- Writes a text as it is. -/
def writeText (path : Path) (s : String) (fault : Refusal → Fault) : Job Unit :=
  change (·.writeFile path (Utf8.encode s.toList)) fault

/-- Opens a file for writing. -/
def openFile (path : Path) (fault : Refusal → Fault) : Job Location := do
  let s ← get
  match s.disk.openFile path with
  | .ok (disk, l) =>
    set { s with disk }
    return l
  | .error r => throw (fault r)

/-- Writes a text to an open file. -/
def overwrite (l : Location) (s : String) : Job Unit :=
  modify fun st => { st with disk := st.disk.overwrite l (Utf8.encode s.toList) }

/-- Writes a text to a file whose folder is made if need be. -/
def saveText (path : Path) (s : String) : Job Unit := do
  makeFolders path.parent
  writeText path s (Fault.refused · path)

/-! ## Laws -/

@[simp] theorem exec_pure {α : Type} (a : α) (s : RunState) : exec (pure a) s = (.ok a, s) := rfl

theorem exec_pure_eq_ok {α : Type} {a b : α} {s s' : RunState} (h : exec (pure a) s = (.ok b, s')) :
    b = a ∧ s' = s := by
  rw [exec_pure, Prod.mk.injEq] at h
  exact ⟨(Except.ok.inj h.1).symm, h.2.symm⟩

@[simp] theorem exec_throw {α : Type} (f : Fault) (s : RunState) :
    exec (throw f : Job α) s = (.error f, s) := rfl

/-- A job that is followed by others: if it ends with a fault, the others do not start. -/
theorem exec_bind {α β : Type} (job : Job α) (next : α → Job β) (s : RunState) :
    exec (job >>= next) s =
      match exec job s with
      | (.ok a, s) => exec (next a) s
      | (.error f, s) => (.error f, s) := by
  show (ExceptT.run (job >>= next)) s = _
  rw [ExceptT.run_bind]
  show (StateT.bind (ExceptT.run job) _) s = _
  unfold StateT.bind exec
  cases h : ExceptT.run job s with
  | mk r s => cases r <;> simp <;> rfl

/-- A job that is followed by others has a result if all of them have. -/
theorem exec_bind_eq_ok {α β : Type} {job : Job α} {next : α → Job β} {s s' : RunState} {b : β}
    (h : exec (job >>= next) s = (.ok b, s')) :
    ∃ a s₁, exec job s = (.ok a, s₁) ∧ exec (next a) s₁ = (.ok b, s') := by
  rw [exec_bind] at h
  split at h
  · next a s₁ ha => exact ⟨a, s₁, ha, h⟩
  · cases h

@[simp] theorem exec_print (e : Event) (s : RunState) :
    exec (print e) s = (.ok (), { s with printed := s.printed ++ [e] }) := rfl

@[simp] theorem exec_printAll (es : List Event) (s : RunState) :
    exec (printAll es) s = (.ok (), { s with printed := s.printed ++ es }) := rfl

/-- An attempt ends with the result or the fault of the job, and leaves what the job leaves. -/
@[simp] theorem exec_attempt {α : Type} (job : Job α) (s : RunState) :
    exec (attempt job) s = (.ok (exec job s).1, (exec job s).2) := rfl

/-- A question to the disk changes nothing. -/
theorem exec_ask {α : Type} (question : FileSystem → Except Refusal α) (fault : Refusal → Fault)
    (s : RunState) : exec (ask question fault) s = ((question s.disk).mapError fault, s) := by
  unfold ask
  rw [exec_bind]
  show exec (match question s.disk with | .ok a => pure a | .error r => throw (fault r)) s = _
  cases question s.disk <;> rfl

theorem exec_openFile (path : Path) (fault : Refusal → Fault) (s : RunState) :
    exec (openFile path fault) s =
      match s.disk.openFile path with
      | .ok (disk, l) => (.ok l, { s with disk })
      | .error r => (.error (fault r), s) := by
  unfold openFile
  rw [exec_bind]
  show exec (match s.disk.openFile path with
    | .ok (disk, l) => do
      set { s with disk }
      return l
    | .error r => throw (fault r)) s = _
  cases s.disk.openFile path <;> rfl

@[simp] theorem exec_overwrite (l : Location) (text : String) (s : RunState) :
    exec (overwrite l text) s = (.ok (), { s with disk := s.disk.overwrite l (Utf8.encode text.toList) }) := rfl

/-- A change that is refused changes nothing. -/
theorem exec_change (operation : FileSystem → Except Refusal FileSystem) (fault : Refusal → Fault)
    (s : RunState) :
    exec (change operation fault) s =
      match operation s.disk with
      | .ok disk => (.ok (), { s with disk })
      | .error r => (.error (fault r), s) := by
  unfold change
  rw [exec_bind]
  show exec (match operation s.disk with
    | .ok disk => set { s with disk }
    | .error r => throw (fault r)) s = _
  cases operation s.disk <;> rfl

end Job

end Stencil
