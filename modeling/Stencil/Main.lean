import Stencil.CommandLine.Reach
import Stencil.Console.Plain

/-!
# `Stencil.Main` — the program

The command works on folders and files in memory. The program looks up the places that the command
leads to, runs the command, writes back what changed, and prints.
-/

namespace Stencil.Main

open CommandLine Number

/-- The name of a location for the system. -/
def nameOf (l : Location) : String := "/" ++ "/".intercalate l

/-- The number of the error of reading a folder. -/
def readsFolder : UInt32 := 21

/-- What is at a location. -/
def look (l : Location) : IO (Option Entry) := do
  try return some (.file (← IO.FS.readBinFile (nameOf l)).toList)
  catch
    | .inappropriateType _ code _ => return if code = readsFolder then some .folder else none
    | _ => return none

/-- The disk with what is at the locations. -/
def lookAll (disk : FileSystem) (ls : List Location) : IO FileSystem :=
  ls.foldlM
    (fun disk l => do
      if l = [] then return disk
      else
        match ← look l with
        | some e => return disk.put l e
        | none => return disk)
    disk

/-- The disk as far as a command line leads to it. The places that it names are looked up first, and what they hold leads
    to others. -/
def load (workingFolder : Location) (argv : List String) : IO FileSystem := do
  let disk ← lookAll { workingFolder } (locationsFrom [] workingFolder)
  let disk ← lookAll disk ((reach argv disk).flatMap (locationsOf workingFolder))
  lookAll disk ((reach argv disk).flatMap (locationsOf workingFolder))

/-- Writes back what is new or changed. A new folder comes before what is in it. -/
def store (before after : FileSystem) : IO Unit :=
  for (l, e) in after.entries do
    if before.entryAt? l ≠ some e then
      match e with
      | .folder => IO.FS.createDir (nameOf l)
      | .file content => IO.FS.writeBinFile (nameOf l) ⟨content.toArray⟩

/-- Runs a command line and gives the exit code. -/
def run (argv : List String) : IO Nat := do
  let started ← IO.monoMsNow
  let workingFolder := (Path.ofString (toString (← IO.currentDir))).parts
  let disk ← load workingFolder argv
  let elapsed := Duration.real (.ofDecimal false ((← IO.monoMsNow) - started) (-3))
  let (result, s) := (command argv elapsed).exec { disk }
  store disk s.disk
  for event in s.printed do
    for line in event.lines do IO.println line
  match result with
  | .ok code => return code
  | .error f =>
    IO.eprintln f.message
    return exitFailure

end Stencil.Main

/-- The program. -/
def main (argv : List String) : IO UInt32 := return UInt32.ofNat (← Stencil.Main.run argv)
