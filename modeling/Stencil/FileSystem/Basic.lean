import Stencil.Entries
import Stencil.Path
import Stencil.Text.Quoted
import Stencil.Text.Utf8

/-!
# `Stencil.FileSystem.Basic` — folders and files on a disk

## Contents
- **State.** A `FileSystem` has an entry, folder or file, at each location that is in use. A
  location is the list of names from the root; the root itself is always a folder.
- **Resolution.** A path is followed one name at a time from the root or the working folder. Every
  name needs a folder to look in, `..` climbs from the folder reached, and neither a name nor the
  whole path may be too long.
- **Operations.** `makeFolder`, `readFile`, `writeFile` and the two questions `holds` and
  `holdsFolder`. Each either gives the new state or answer, or is refused for a reason; a refusal
  changes nothing. To write a file is to open it, which empties it, and then to fill it: `openFile`
  and `overwrite` do it in two steps, between which others may come.
-/

namespace Stencil

open Text

/-- The names from the root to a folder or file. -/
abbrev Location := List String

/-- What is at a location. -/
inductive Entry where
  /-- A folder. -/
  | folder
  /-- A file with its bytes. -/
  | file (content : Bytes)
  deriving Repr, DecidableEq

/-- A disk and the folder in which relative paths start. -/
structure FileSystem where
  /-- What is at each location in use. -/
  entries : List (Location × Entry) := []
  /-- Where relative paths start. -/
  workingFolder : Location := []
  deriving Repr, DecidableEq, Inhabited

/-- Why the system refuses to do something. -/
inductive Cause where
  /-- Nothing is there. -/
  | notFound
  /-- Something is there already. -/
  | alreadyExists
  /-- A file is where a folder is needed. -/
  | notFolder
  /-- A folder is where a file is needed. -/
  | isFolder
  /-- A name or a path has too many bytes. -/
  | nameTooLong
  deriving Repr, DecidableEq

/-- The number of a cause. -/
def Cause.number : Cause → Nat
  | .notFound => 2
  | .alreadyExists => 17
  | .notFolder => 20
  | .isFolder => 21
  | .nameTooLong => 36

/-- A cause in words. -/
def Cause.words : Cause → String
  | .notFound => "No such file or directory"
  | .alreadyExists => "File exists"
  | .notFolder => "Not a directory"
  | .isFolder => "Is a directory"
  | .nameTooLong => "File name too long"

/-- A refusal: the system's, or that of a path which no system call takes. -/
inductive Refusal where
  /-- The system refuses for a cause. -/
  | cause (c : Cause)
  /-- The path holds the character that ends a path. -/
  | nullCharacter
  deriving Repr, DecidableEq

/-- The report of a cause at a path. -/
def Cause.message (c : Cause) (path : Path) : String :=
  "[Errno " ++ toString c.number ++ "] " ++ c.words ++ ": " ++ quoted path.text

namespace FileSystem

/-- The most bytes that a name may have. -/
def maxNameBytes : Nat := 255

/-- The most bytes that a path may have. -/
def maxPathBytes : Nat := 4095

/-- What is at a location. -/
def entryAt? (fs : FileSystem) : Location → Option Entry
  | [] => some .folder
  | l => Entries.get? l fs.entries

/-- Puts an entry at a location. -/
def put (fs : FileSystem) (l : Location) (e : Entry) : FileSystem :=
  { fs with entries := Entries.insert l e fs.entries }

/-! ## Resolution -/

/-- Looks a name up in the folder at a location. The result need not exist. -/
def step (fs : FileSystem) (here : Location) (name : String) : Except Cause Location :=
  match fs.entryAt? here with
  | none => .error .notFound
  | some (.file _) => .error .notFolder
  | some .folder =>
    if name = ".." then .ok here.dropLast
    else if maxNameBytes < name.utf8ByteSize then .error .nameTooLong
    else .ok (here ++ [name])

/-- Follows names from a location on. -/
def follow (fs : FileSystem) (here : Location) : List String → Except Cause Location
  | [] => .ok here
  | name :: names =>
    match fs.step here name with
    | .error c => .error c
    | .ok next => fs.follow next names

/-- Where a path starts. -/
def startOf (fs : FileSystem) (path : Path) : Location :=
  match path.root with
  | .here => fs.workingFolder
  | _ => []

/-- The location that a path leads to. -/
def resolve (fs : FileSystem) (path : Path) : Except Cause Location :=
  if maxPathBytes < path.text.utf8ByteSize then .error .nameTooLong
  else fs.follow (fs.startOf path) path.parts

/-- Whether a path can be given to the system at all. -/
def isUsable (path : Path) : Bool := !path.parts.any fun c => c.toList.contains '\x00'

/-- Resolves a path that is to be given to the system. -/
def locate (fs : FileSystem) (path : Path) : Except Refusal Location :=
  if isUsable path then
    match fs.resolve path with
    | .ok l => .ok l
    | .error c => .error (.cause c)
  else .error .nullCharacter

/-! ## Operations -/

/-- Makes a folder in a folder that exists. -/
def makeFolder (fs : FileSystem) (path : Path) : Except Refusal FileSystem :=
  match fs.locate path with
  | .error r => .error r
  | .ok l =>
    match fs.entryAt? l with
    | some _ => .error (.cause .alreadyExists)
    | none => .ok (fs.put l .folder)

/-- The bytes of a file. -/
def readFile (fs : FileSystem) (path : Path) : Except Refusal Bytes :=
  match fs.locate path with
  | .error r => .error r
  | .ok l =>
    match fs.entryAt? l with
    | none => .error (.cause .notFound)
    | some .folder => .error (.cause .isFolder)
    | some (.file content) => .ok content

/-- Writes a file, new or in the place of the old one, in a folder that exists. -/
def writeFile (fs : FileSystem) (path : Path) (content : Bytes) : Except Refusal FileSystem :=
  match fs.locate path with
  | .error r => .error r
  | .ok l =>
    match fs.entryAt? l with
    | some .folder => .error (.cause .isFolder)
    | _ => .ok (fs.put l (.file content))

/-- Opens a file for writing, new or emptied, in a folder that exists. -/
def openFile (fs : FileSystem) (path : Path) : Except Refusal (FileSystem × Location) :=
  match fs.locate path with
  | .error r => .error r
  | .ok l =>
    match fs.entryAt? l with
    | some .folder => .error (.cause .isFolder)
    | _ => .ok (fs.put l (.file []), l)

/-- Writes to an open file from its start on. What others have written behind that stays. -/
def overwrite (fs : FileSystem) (l : Location) (content : Bytes) : FileSystem :=
  match fs.entryAt? l with
  | some (.file old) => fs.put l (.file (content ++ old.drop content.length))
  | _ => fs

/-- What a path leads to, where a path that leads nowhere leads to nothing. -/
def find? (fs : FileSystem) (path : Path) : Except Refusal (Option Entry) :=
  match fs.locate path with
  | .ok l => .ok (fs.entryAt? l)
  | .error (.cause .notFound) => .ok none
  | .error (.cause .notFolder) => .ok none
  | .error .nullCharacter => .ok none
  | .error r => .error r

/-- Whether a path leads to something. -/
def holds (fs : FileSystem) (path : Path) : Except Refusal Bool := (fs.find? path).map Option.isSome

/-- Whether a path leads to a folder. -/
def holdsFolder (fs : FileSystem) (path : Path) : Except Refusal Bool :=
  (fs.find? path).map (· == some .folder)

/-! ## Laws -/

@[simp] theorem entryAt?_nil (fs : FileSystem) : fs.entryAt? [] = some .folder := rfl

theorem entryAt?_put_self (fs : FileSystem) {l : Location} (h : l ≠ []) (e : Entry) :
    (fs.put l e).entryAt? l = some e := by
  cases l with
  | nil => exact absurd rfl h
  | cons n ns => simp [entryAt?, put, Entries.get?_insert_self]

theorem entryAt?_put_of_ne (fs : FileSystem) {l m : Location} (h : l ≠ m) (e : Entry) :
    (fs.put l e).entryAt? m = fs.entryAt? m := by
  cases m with
  | nil => rfl
  | cons n ns => simp [entryAt?, put, Entries.get?_insert_of_ne h]

@[simp] theorem workingFolder_put (fs : FileSystem) (l : Location) (e : Entry) :
    (fs.put l e).workingFolder = fs.workingFolder := rfl

end FileSystem

end Stencil
