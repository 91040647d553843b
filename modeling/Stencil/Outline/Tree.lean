import Stencil.Scope.Basic

/-!
# `Stencil.Outline.Tree` — folders and files

## Contents
- **Data.** A `Folder` has files and subfolders in the order of the outline; an `Outline` is a list
  of root folders, with a message for each line that found no place.
- **Walks.** `Outline.walk` lists every folder with the names on the way to it, each before its
  subfolders.
- **Structure log.** `Folder.describe` writes the skeleton of a folder as text.
- **Levels.** `Outline.levels` says how deeply folders lie in folders.
-/

namespace Stencil

/-- A file to be made from a template. -/
structure File where
  /-- The template, empty if there is none. -/
  templateId : String := ""
  /-- The name, with placeholders and notes. -/
  name : String
  /-- Parameters of this file alone. -/
  parameters : Option Scope := none
  deriving Repr, DecidableEq

/-- A folder with its files and subfolders. -/
inductive Folder where
  /-- A folder of a name, with its files and its subfolders. -/
  | mk (name : String) (files : List File) (folders : List Folder)
  deriving Repr, Inhabited

/-- An outline document: its root folders and the lines that were dropped. -/
structure Outline where
  /-- The root folders. -/
  folders : List Folder := []
  /-- A message for each line without an enclosing folder. -/
  dropped : List String := []
  deriving Repr, Inhabited

namespace Folder

/-- The name, with placeholders. -/
def name : Folder → String
  | .mk name _ _ => name

/-- The files directly inside. -/
def files : Folder → List File
  | .mk _ files _ => files

/-- The subfolders. -/
def folders : Folder → List Folder
  | .mk _ _ folders => folders

mutual

/-- The folder and all folders below it, each with the names that lead to it. -/
def walk (above : List String) : Folder → List (List String × Folder)
  | .mk name files folders =>
    (above ++ [name], .mk name files folders) :: walkAll (above ++ [name]) folders

/-- The walks of several folders, one after the other. -/
def walkAll (above : List String) : List Folder → List (List String × Folder)
  | [] => []
  | f :: fs => walk above f ++ walkAll above fs

end

mutual

/-- The skeleton of a folder: its name, the template ids of its files, its subfolders. -/
def describe : Folder → String
  | .mk name files folders =>
    "Folder:" ++ name ++ "\nFiles:" ++ ", ".intercalate (files.map File.templateId)
      ++ "\nSubFolders: [" ++ ", ".intercalate (describeAll folders) ++ "]\n"

/-- The skeletons of several folders. -/
def describeAll : List Folder → List String
  | [] => []
  | f :: fs => describe f :: describeAll fs

end

mutual

/-- How many folders stand in each other at the deepest place of a folder, itself included. -/
def levels : Folder → Nat
  | .mk _ _ folders => levelsOf folders + 1

/-- The most levels of several folders. -/
def levelsOf : List Folder → Nat
  | [] => 0
  | f :: fs => max (levels f) (levelsOf fs)

end

@[simp] theorem walkAll_nil (above : List String) : walkAll above [] = [] := by rw [walkAll]

@[simp] theorem walkAll_cons (above : List String) (f : Folder) (fs : List Folder) :
    walkAll above (f :: fs) = walk above f ++ walkAll above fs := by rw [walkAll]

end Folder

namespace Outline

/-- All folders, depth first, each with the names that lead to it. -/
def walk (o : Outline) : List (List String × Folder) := Folder.walkAll [] o.folders

/-- How many folders there are. -/
def folderCount (o : Outline) : Nat := o.walk.length

/-- How many files there are. -/
def fileCount (o : Outline) : Nat := (o.walk.map fun p => p.2.files.length).foldr (· + ·) 0

/-- The skeletons of the root folders, a line apart. -/
def describe (o : Outline) : String := "\n".intercalate (Folder.describeAll o.folders)

/-- How many folders stand in each other at the deepest place. -/
def levels (o : Outline) : Nat := Folder.levelsOf o.folders

end Outline

end Stencil
