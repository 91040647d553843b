import Stencil.Json.Printer
import Stencil.Outline.Json
import Stencil.Settings.Naming

/-!
# `Stencil.Manifest` — what a run generates, for other tools

A `Manifest` records the generated folders as groups, with the paths of their files, all relative to
the folder of the project. Within a group the subgroups come before the files, and
`Manifest.allFiles` lists the files in that order. The structure log of the outline goes with it.

A manifest is stored as a JSON text, unless it has more than `maxLevels` levels of groups (`Job.writeManifest`).
`Manifest.ofText` reads one back; only the name and the path of a group are required. Strictly it is read only up to
`Json.maxNesting`, which is reached with far fewer levels than are stored.
-/

namespace Stencil

open Json

/-- A generated folder: its name, its path, the groups of its subfolders and the paths of its files. -/
inductive Group where
  /-- A group of a name and a path, with subgroups and files. -/
  | mk (name path : String) (groups : List Group) (files : List String)
  deriving Repr, Inhabited

/-- All that is generated at one target path. -/
structure Manifest where
  /-- The target path. -/
  targetPath : String
  /-- The groups of the root folders. -/
  groups : List Group
  /-- The structure log of the outline. -/
  log : String
  deriving Repr, Inhabited

namespace Group

mutual

/-- The group of a folder whose parent has the given path. -/
def ofFolder (s : Settings) (parent : Path) : Folder → Group
  | .mk name files folders =>
    let path := parent / s.folderName name
    .mk (s.folderName name) path.text (ofFolders s path folders)
      (files.map fun f => (path / s.fileName f).text)

/-- The groups of several folders. -/
def ofFolders (s : Settings) (parent : Path) : List Folder → List Group
  | [] => []
  | f :: fs => ofFolder s parent f :: ofFolders s parent fs

end

mutual

/-- The files of a group, those of its subgroups first. -/
def allFiles : Group → List String
  | .mk _ _ groups files => allFilesOf groups ++ files

/-- The files of several groups. -/
def allFilesOf : List Group → List String
  | [] => []
  | g :: gs => allFiles g ++ allFilesOf gs

end

mutual

/-- How many groups stand in each other at the deepest place of a group, itself included. -/
def levels : Group → Nat
  | .mk _ _ groups _ => levelsOf groups + 1

/-- The most levels of several groups. -/
def levelsOf : List Group → Nat
  | [] => 0
  | g :: gs => max (levels g) (levelsOf gs)

end

mutual

/-- The value of a group. -/
def toJson : Group → Value
  | .mk name path groups files =>
    .object [("name", .string name), ("path", .string path), ("groups", .array (toJsonAll groups)),
      ("files", stringsToJson files)]

/-- The values of several groups. -/
def toJsonAll : List Group → List Value
  | [] => []
  | g :: gs => toJson g :: toJsonAll gs

end

/-- A group whose value has no greater depth than this. -/
def checkTo : (depth : Nat) → Value → Checked Group
  | 0 => fun _ => .problem .notRecord
  | depth + 1 =>
    Check.record fun ms =>
      Group.mk
        <$> Check.required "name" Check.text ms
        <*> Check.required "path" Check.text ms
        <*> Check.optional "groups" [] (Check.listOf (checkTo depth)) ms
        <*> Check.optional "files" [] (Check.listOf Check.text) ms

/-- A group. -/
def check (v : Value) : Checked Group := checkTo (v.depth + 1) v

end Group

namespace Manifest

/-- The manifest of an outline. -/
def ofOutline (s : Settings) (o : Outline) : Manifest where
  targetPath := s.targetPath
  groups := Group.ofFolders s (.ofString s.targetPath) o.folders
  log := o.describe

/-- The files of all groups, in the order of the groups. -/
def allFiles (m : Manifest) : List String := Group.allFilesOf m.groups

/-- How many groups stand in each other at the deepest place. -/
def levels (m : Manifest) : Nat := Group.levelsOf m.groups

/-- The value of a manifest. -/
def toJson (m : Manifest) : Value :=
  .object [("target_path", .string m.targetPath), ("groups", .array (Group.toJsonAll m.groups)),
    ("structure", .string m.log)]

/-- The text in which a manifest is stored. -/
def text (m : Manifest) : String := m.toJson.text .indented

/-- A manifest. -/
def check : Value → Checked Manifest :=
  Check.record fun ms =>
    Manifest.mk
      <$> Check.optional "target_path" "" Check.text ms
      <*> Check.optional "groups" [] (Check.listOf Group.check) ms
      <*> Check.optional "structure" "" Check.text ms

/-- A manifest from a JSON text. -/
def ofText (d : Dialect) (text : List Char) : Checked Manifest :=
  match parse d text with
  | .ok v => check v
  | .error _ => .problem .notJson

end Manifest

end Stencil
