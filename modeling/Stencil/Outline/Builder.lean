import Stencil.Outline.Line
import Stencil.Outline.Tree

/-!
# `Stencil.Outline.Builder` — from lines to folders

## Contents
- **State.** A `Builder` holds a draft for every folder line so far, numbered in the order of the
  lines. It remembers which draft was opened last at each depth.
- **Steps.** `Builder.add` attaches a line to the folder opened last one level above it. A line
  without such a folder is dropped and reported; a dropped folder is still remembered at its depth,
  so what belongs to it goes with it.
- **Result.** `Builder.build` turns the drafts into an outline. A draft's subfolders come after it,
  so one pass from the last draft to the first makes them all.
-/

namespace Stencil

/-- A folder under construction: its subfolders are drafts with higher numbers. -/
structure Draft where
  /-- The name of the folder. -/
  name : String
  /-- The files so far. -/
  files : List File := []
  /-- The numbers of the subfolders so far. -/
  children : List Nat := []
  deriving Repr, DecidableEq

/-- A line that found no place. -/
structure Drop where
  /-- The number of the line in the document. -/
  number : Int
  /-- What it names. -/
  kind : Kind
  /-- The name. -/
  name : String
  /-- Its depth. -/
  depth : Nat
  deriving Repr, DecidableEq

/-- The report of a dropped line. -/
def Drop.message (d : Drop) : String :=
  "line " ++ toString d.number ++ ": " ++ d.kind.word ++ " '" ++ d.name ++ "' at depth "
    ++ toString d.depth ++ " has no enclosing folder"

/-- The folders and files of the lines so far. -/
structure Builder where
  /-- A draft for each folder line, in order. -/
  drafts : List Draft := []
  /-- The numbers of the root folders. -/
  roots : List Nat := []
  /-- The draft opened last at each depth that has one. -/
  latest : List (Nat × Nat) := []
  /-- The lines dropped so far. -/
  dropped : List Drop := []
  deriving Repr, DecidableEq

namespace Builder

/-- The builder before the first line. -/
def empty : Builder := {}

instance : Inhabited Builder := ⟨empty⟩

/-- The folder that encloses a line of a depth: the one opened last one level above. -/
def enclosing? (b : Builder) (depth : Nat) : Option Nat :=
  match depth with
  | 0 => none
  | above + 1 => Entries.get? above b.latest

/-- Opens a folder at a depth, which has the next number. -/
def openFolder (b : Builder) (name : String) (depth : Nat) : Builder :=
  { b with
    drafts := b.drafts ++ [{ name }]
    latest := Entries.insert depth b.drafts.length b.latest }

/-- Reports a line that has no enclosing folder. -/
def drop (b : Builder) (line : Line) (number : Int) : Builder :=
  { b with dropped := b.dropped ++ [⟨number, line.kind, line.name, line.depth⟩] }

/-- Puts a subfolder at the end of a draft. -/
def addChild (b : Builder) (parent child : Nat) : Builder :=
  { b with drafts := b.drafts.modify parent fun d => { d with children := d.children ++ [child] } }

/-- Puts a file at the end of a draft. -/
def addFile (b : Builder) (parent : Nat) (file : File) : Builder :=
  { b with drafts := b.drafts.modify parent fun d => { d with files := d.files ++ [file] } }

/-- The file that a line names. -/
def fileOf (line : Line) : File :=
  { templateId := line.templateId, name := line.name, parameters := line.parameters }

/-- Attaches a line. -/
def add (b : Builder) (line : Line) (number : Int) : Builder :=
  match line.kind with
  | .folder =>
    let opened := b.openFolder line.name line.depth
    if line.depth = 0 then { opened with roots := opened.roots ++ [b.drafts.length] }
    else
      match b.enclosing? line.depth with
      | none => opened.drop line number
      | some parent => opened.addChild parent b.drafts.length
  | .file =>
    match b.enclosing? line.depth with
    | none => b.drop line number
    | some parent => b.addFile parent (fileOf line)

/-- Attaches numbered lines one after the other. -/
def addAll (b : Builder) (lines : List (Line × Int)) : Builder :=
  lines.foldl (fun b l => b.add l.1 l.2) b

/-- The folders of a run of drafts, the first of which has the given number. -/
def finish : Nat → List Draft → List Folder
  | _, [] => []
  | number, d :: ds =>
    let later := finish (number + 1) ds
    .mk d.name d.files (d.children.filterMap fun c => later[c - (number + 1)]?) :: later

/-- The outline of the lines so far. -/
def build (b : Builder) : Outline :=
  let folders := finish 0 b.drafts
  { folders := b.roots.filterMap fun r => folders[r]?
    dropped := b.dropped.map Drop.message }

end Builder

end Stencil
