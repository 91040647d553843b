import Stencil.Manifest
import Stencil.Outline.Document
import Stencil.Outline.Labels
import Stencil.Run.Host

/-!
# `Stencil.Run.Steps` — a whole run

A run has three steps: it parses the outline, generates folders and files, and writes the manifest.
Each step is announced. Between them, the tree of the outline is shown, and there are warnings about
lines that were dropped and placeholders that stayed open.
-/

namespace Stencil

open Console Text

/-- What a run came to. -/
structure Summary where
  /-- How many folders it made. -/
  folders : Nat
  /-- How many files it made. -/
  files : Nat
  /-- The lines that were dropped. -/
  dropped : List String
  /-- The keys without a value, by file. -/
  unresolved : List (String × List String)
  /-- Where the manifest is; a dry run writes none. -/
  manifest : Option Path
  deriving Repr, DecidableEq

namespace Job

/-- Reads an outline document, which has to be there. -/
def readOutline (path : String) : Job Outline := do
  let p := Path.ofString path
  if ← ask (·.holds p) (Fault.refused · p) then
    let text ← readText p (Fault.refused · p)
    return Outline.ofText text.toList
  else throw (.outlineMissing path)

/-- Writes a manifest and gives the path back. A manifest of too many levels is not turned into a text, and then
    nothing is done on the disk. -/
def writeManifest (m : Manifest) (path : Path) : Job Path := do
  if maxLevels < m.levels then throw .tooManyLevels
  else
    saveText path m.text
    return path

end Job

/-- The warning about a dropped line. -/
def dropWarning (message : String) : Event := warning ("Skipped " ++ escapeMarkup message)

/-- The warning about keys without a value. -/
def unresolvedWarning (entry : String × List String) : Event :=
  warning ("Unresolved placeholders in " ++ escapeMarkup entry.1 ++ ": "
    ++ escapeMarkup (", ".intercalate entry.2))

namespace Generator

variable (host : Host) (g : Generator)

/-- Displays an outline, unless the run is to be quiet. -/
def displayOutline (outline : Outline) : Job Unit :=
  if g.quiet then return () else host.display (.tree (outline.labels g.settings.inputPath.text))

/-- What a run does with the outline that it has read and displayed. -/
def produceOn (outline : Outline) : Job Summary := do
  Job.printAll (outline.dropped.map dropWarning)
  Job.printAll (stepHeader 2 "GENERATE")
  let report ← g.generateBy host.scheduler outline
  host.displayAll (report.unresolved.map unresolvedWarning)
  Job.printAll (stepHeader 3 "MANIFEST")
  let manifest ←
    if g.settings.dryRun then pure none
    else
      some <$> Job.writeManifest (Manifest.ofOutline g.settings outline) g.settings.resolvedManifestPath
  return {
    folders := report.folders.length
    files := report.files.length
    dropped := outline.dropped
    unresolved := report.unresolved
    manifest }

/-- Runs the three steps on a host. -/
def runOn : Job Summary := do
  Job.printAll (stepHeader 1 "PARSE")
  let outline ← Job.readOutline g.settings.inputPath.text
  g.displayOutline host outline
  g.produceOn host outline

/-- Runs the three steps on a host that makes everything in turn and displays everything. -/
def run : Job Summary := g.runOn {}

end Generator

end Stencil
