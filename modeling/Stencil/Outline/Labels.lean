import Stencil.Console.Event
import Stencil.Outline.Tree

/-!
# `Stencil.Outline.Labels` — an outline as a tree of labels

The tree that is printed for an outline: a title, below it the root folders, and below each folder
its subfolders first and then its files. The names are escaped, the title is marked-up text already.
-/

namespace Stencil

open Console Text

/-- The label of a file: its name, and its template id if it has one. -/
def File.label (f : File) : String :=
  if f.templateId = "" then escapeMarkup f.name
  else escapeMarkup f.name ++ " " ++ tagged "dim" (escapeMarkup ("[" ++ f.templateId ++ "]"))

/-- The label of a folder of this name. -/
def Folder.labelOf (name : String) : String := tagged "bold blue" (escapeMarkup name ++ "/")

namespace Folder

mutual

/-- The tree of a folder. -/
def labels : Folder → LabelTree
  | .mk name files folders =>
    .node (labelOf name) (labelsAll folders ++ files.map fun f => .node f.label [])

/-- The trees of several folders. -/
def labelsAll : List Folder → List LabelTree
  | [] => []
  | f :: fs => labels f :: labelsAll fs

end

end Folder

/-- The tree of an outline below a title. -/
def Outline.labels (o : Outline) (title : String) : LabelTree :=
  .node (tagged "bold" title) (Folder.labelsAll o.folders)

end Stencil
