import Stencil.Outline.Tree
import Stencil.Settings.Basic
import Stencil.Template.Note
import Stencil.Template.Placeholder

/-!
# `Stencil.Settings.Naming` — the names of generated folders and files

The name of a folder is completed from the parameters of the run alone. The name of a file is
completed from its own parameters laid over those of the run, and then loses its notes.
-/

namespace Stencil.Settings

/-- The name that a folder gets. -/
def folderName (s : Settings) (name : String) : String := Placeholder.fill s.parameters name

/-- The parameters that a file sees. -/
def scopeOf (s : Settings) (f : File) : Scope := Scope.merged f.parameters s.parameters

/-- The name that a file gets. -/
def fileName (s : Settings) (f : File) : String := Note.erase (Placeholder.fill (s.scopeOf f) f.name)

/-- Where the template of a file is. -/
def templatePath (s : Settings) (f : File) : Path := s.templatesDir.join (.ofString f.templateId)

end Stencil.Settings
