import Stencil.Run.Job
import Stencil.Settings.Json

/-!
# `Stencil.Run.Storage` — values in files

Settings are stored in a file, from which they can be read back, and any JSON value can be saved.
The folder of the file is made if need be.
-/

namespace Stencil.Job

/-- Saves a JSON value in a file. -/
def saveJson (v : Json.Value) (path : Path) : Job Unit := saveText path (v.text .indented)

/-- Saves settings in a file and gives the path back. -/
def saveSettings (s : Settings) (path : Path) : Job Path := do
  saveText path s.text
  return path

/-- Reads settings from a file. -/
def loadSettings (path : Path) : Job Settings := do
  let text ← readText path (Fault.refused · path)
  match Settings.ofText text.toList with
  | .ok s => return s
  | .failed issues => throw (.invalid issues)

end Stencil.Job
