import Stencil.Path
import Stencil.Scope.Basic

/-!
# `Stencil.Settings.Basic` — the settings of a run

## Contents
- **Settings.** Where the project, the templates and the outline are, where the output goes, the
  parameters of the run and how it behaves.
- **Derived paths.** The output goes below the folder of the project, at the target path. The
  manifest goes to the output unless the settings name another place.
-/

namespace Stencil

/-- How many files are written at once if nothing else is said. -/
def usualWrites : { n : Nat // 1 ≤ n } := ⟨8, by decide⟩

/-- The settings of a run. -/
structure Settings where
  /-- The project file; its folder is where the target path starts. -/
  projectPath : Path := .ofString "./Project.xcodeproj"
  /-- The place of the output, relative to the folder of the project. -/
  targetPath : String := ""
  /-- The folder of the templates. -/
  templatesDir : Path := .ofString "./templates"
  /-- The outline document. -/
  inputPath : Path := .ofString "./outline.txt"
  /-- The parameters that every file sees. -/
  parameters : Scope := .empty
  /-- The place of the manifest, if it is not the usual one. -/
  manifestPath : Option Path := none
  /-- Whether folders that exist already are used. -/
  allowExisting : Bool := false
  /-- Whether paths are only worked out and nothing is written. -/
  dryRun : Bool := false
  /-- How many files are written at once at most. If it is one, the files of a folder are written one after the other.
      Otherwise it bounds how far the files of a folder go side by side, and so which of two files with one path may
      be written last, and what else has been written when a run fails. -/
  maxParallelWrites : { n : Nat // 1 ≤ n } := usualWrites
  deriving DecidableEq

namespace Settings

instance : Inhabited Settings := ⟨{}⟩

/-- The folder of the project file. -/
def projectDir (s : Settings) : Path := s.projectPath.parent

/-- The folder in which the root folders of an outline are made. -/
def outputRoot (s : Settings) : Path := s.projectDir / s.targetPath

/-- The usual place of the manifest. -/
def defaultManifestPath (s : Settings) : Path := s.outputRoot / "modulegen-manifest.json"

/-- The place of the manifest. -/
def resolvedManifestPath (s : Settings) : Path := s.manifestPath.getD s.defaultManifestPath

end Settings

end Stencil
