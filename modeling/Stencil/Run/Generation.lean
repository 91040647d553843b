import Stencil.Run.Writable
import Stencil.Settings.Naming

/-!
# `Stencil.Run.Generation` — making folders and files

## Contents
- **Report.** What a run made, in the order of the outline, and the keys that stayed without a
  value, by file.
- **Generation.** `generate` makes each folder, then its files, then its subfolders, and stops at
  the first failure. A dry run works out the same paths and touches nothing.
- **Stand-ins.** Where the settings hold the stand-in of a value that is no text, names and contents
  are completed with the value itself as well, before anything is made of them.

The program starts the files of a folder together, and so its subfolders; only a folder and what is in it, the
files and the subfolders of a folder, and the root folders follow each other. The order of `generate` is one order
of many. `Generator.generateBy` leaves the order to a scheduler, and `generate` is what it does in turn
(`generateBy_inTurn`). The orders in which everything succeeds, as lists of tasks, are those of `Settings.Schedules`.
-/

namespace Stencil

open Console Text

/-- What was made. -/
structure Report where
  /-- The folders. -/
  folders : List Path := []
  /-- The files. -/
  files : List Path := []
  /-- For each file with such keys, the keys of placeholders without a value. -/
  unresolved : List (String × List String) := []
  deriving Repr, Inhabited, DecidableEq

namespace Report

/-- Puts another report behind this one. A file that comes again keeps its place and gets the later keys. -/
def extend (r s : Report) : Report where
  folders := r.folders ++ s.folders
  files := r.files ++ s.files
  unresolved := Entries.merge r.unresolved s.unresolved

/-- The report of one folder. -/
def ofFolder (path : Path) : Report := { folders := [path] }

/-- The report of one file with its keys without a value. -/
def ofFile (path : Path) (keys : List String) : Report where
  files := [path]
  unresolved := if keys.isEmpty then [] else [(path.text, keys)]

@[simp] theorem empty_extend (r : Report) (h : (Entries.keys r.unresolved).Nodup) :
    ({} : Report).extend r = r := by
  have := Entries.collapse_eq_self h
  simp only [Entries.collapse] at this
  simp [extend, this]

end Report

/-- How a run behaves: its settings, and whether it keeps its progress to itself. -/
structure Generator where
  /-- The settings. -/
  settings : Settings
  /-- Whether progress lines are left out. -/
  quiet : Bool := false
  /-- For parameters whose values in the settings are stand-ins, what they stand in for. -/
  loose : List (String × CodePoints) := []

namespace Generator

variable (g : Generator)

/-- Prints a progress line. -/
def report (p : Progress) : Job Unit := if g.quiet then pure () else Job.print (.progress p)

/-! ## Stand-ins -/

/-- The true value of a parameter, which a file's own parameters may give. -/
def value? (own : Option Scope) (name : String) : Option CodePoints :=
  match (own.getD .empty).get? name, Entries.get? name g.loose with
  | some s, _ => some (.ofString s)
  | none, some p => some p
  | none, none => (g.settings.parameters.get? name).map .ofString

/-- Makes sure that the true name of a folder makes a path. The folder is made under the name with the stand-ins, so
    names that differ only in halves from U+DC80 to U+DCFF make one path here, although they are different bytes to the
    system. -/
def requireFolder (parent : Path) (name : String) : Job Unit :=
  if g.loose.isEmpty then return () else Job.requirePath parent (Placeholder.fillPoints (g.value? none) name)

/-- Makes sure that the true name of a file makes a path, and that its true content can be written there. -/
def requireFile (folder path : Path) (f : File) (body : String) : Job Unit :=
  if g.loose.isEmpty then return ()
  else do
    let fill := Placeholder.fillPoints (g.value? f.parameters)
    Job.requirePath folder (Note.erasePoints (fill f.name))
    Job.requireContent path (fill body) (Fault.duringGeneration .writeFile · path)

/-! ## Folders and files -/

/-- The template of a file, or nothing. -/
def template (f : File) : Job String := do
  if f.templateId = "" then return ""
  else
    let path := g.settings.templatePath f
    g.report (.creatingFile path)
    Job.readText path (Fault.duringGeneration .readTemplate · path)

/-- The content of a file: its template with the placeholders completed. -/
def render (f : File) : Job String := do
  let body ← g.template f
  return Placeholder.fill (g.settings.scopeOf f) body

/-- Makes a folder with a name. -/
def makeFolder (parent : Path) (name : String) : Job Path := do
  let path := parent / g.settings.folderName name
  g.report (.creatingFolder path)
  if g.settings.dryRun then return path
  else
    g.requireFolder parent name
    Job.makeFolder path g.settings.allowExisting (Fault.duringGeneration .createFolder · path)
    return path

/-- Makes a file in a folder. -/
def makeFile (folder : Path) (f : File) : Job Report := do
  let path := folder / g.settings.fileName f
  let nameKeys := Placeholder.keys path.name
  if g.settings.dryRun then return .ofFile path nameKeys
  else
    let body ← g.template f
    let content := Placeholder.fill (g.settings.scopeOf f) body
    g.requireFile folder path f body
    Job.writeText path content (Fault.duringGeneration .writeFile · path)
    return .ofFile path (nameKeys ++ Placeholder.keys content)

/-- Makes files in a folder, one after the other; this is one order of many. -/
def makeFiles (folder : Path) : List File → Job Report
  | [] => return {}
  | f :: fs => do
    let first ← g.makeFile folder f
    let others ← makeFiles folder fs
    return first.extend others

mutual

/-- Makes a folder with all that is in it. -/
def generateFolder (parent : Path) : Folder → Job Report
  | .mk name files folders => do
    let path ← g.makeFolder parent name
    let inFiles ← g.makeFiles path files
    let inFolders ← generateFolders path folders
    return ((Report.ofFolder path).extend inFiles).extend inFolders

/-- Makes several folders, one after the other; this is one order of many. -/
def generateFolders (parent : Path) : List Folder → Job Report
  | [] => return {}
  | f :: fs => do
    let first ← generateFolder parent f
    let others ← generateFolders parent fs
    return first.extend others

end

/-- Makes everything that an outline describes, in the order of the outline. -/
def generate (o : Outline) : Job Report := g.generateFolders g.settings.outputRoot o.folders

end Generator

end Stencil
