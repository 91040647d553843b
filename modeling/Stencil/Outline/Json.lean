import Stencil.Json.Check
import Stencil.Json.Parser
import Stencil.Json.Printer
import Stencil.Scope.Json
import Stencil.Outline.Line
import Stencil.Outline.Tree

/-!
# `Stencil.Outline.Json` — outlines as JSON

## Contents
- **Writing.** `Outline.toJson` writes every field, in a fixed order; a file without parameters has
  a null, which is not an empty object. What has more than `maxLevels` levels of folders is given no text.
- **Checking.** `Outline.check` reads such a value back. Only the names of folders and files are
  required; unknown members are passed over. A folder is checked to the depth of the value it is
  read from. The text of an outline is read strictly, and so only up to `Json.maxNesting`, which is reached
  with far fewer levels than are written.
- **Lines.** `Line.check` reads a classified line, for outlines that are built line by line.
-/

namespace Stencil

open Json

/-! ## Writing -/

/-- The value of a list of strings. -/
def stringsToJson (ss : List String) : Value := .array (ss.map .string)

/-- The value of parameters that may be missing. -/
def parametersToJson : Option Scope → Value
  | some s => s.toJson
  | none => .null

/-- The value of a file. -/
def File.toJson (f : File) : Value :=
  .object [("template_id", .string f.templateId), ("name", .string f.name),
    ("parameters", parametersToJson f.parameters)]

namespace Folder

mutual

/-- The value of a folder. -/
def toJson : Folder → Value
  | .mk name files folders =>
    .object [("name", .string name), ("files", .array (files.map File.toJson)),
      ("folders", .array (toJsonAll folders))]

/-- The values of several folders. -/
def toJsonAll : List Folder → List Value
  | [] => []
  | f :: fs => toJson f :: toJsonAll fs

end

end Folder

/-- The value of an outline. -/
def Outline.toJson (o : Outline) : Value :=
  .object [("folders", .array (Folder.toJsonAll o.folders)), ("dropped_lines", stringsToJson o.dropped)]

/-- The most levels of folders, or of groups, that are written: writing has a guard against what holds itself. -/
def maxLevels : Nat := 254

/-- The text of an outline, unless it has too many levels of folders. -/
def Outline.text? (o : Outline) (style : Style) : Option String :=
  if o.levels ≤ maxLevels then some (o.toJson.text style) else none

/-! ## Checking -/

/-- A file. -/
def File.check : Value → Checked File :=
  Check.record fun ms =>
    (fun templateId name parameters => { templateId, name, parameters })
      <$> Check.optional "template_id" "" Check.text ms
      <*> Check.required "name" Check.text ms
      <*> Check.optional "parameters" none (Check.nullable Scope.check) ms

/-- A folder whose value has no greater depth than this. -/
def Folder.checkTo : (depth : Nat) → Value → Checked Folder
  | 0 => fun _ => .problem .notRecord
  | depth + 1 =>
    Check.record fun ms =>
      Folder.mk
        <$> Check.required "name" Check.text ms
        <*> Check.optional "files" [] (Check.listOf File.check) ms
        <*> Check.optional "folders" [] (Check.listOf (Folder.checkTo depth)) ms

/-- A folder. -/
def Folder.check (v : Value) : Checked Folder := Folder.checkTo (v.depth + 1) v

/-- An outline. -/
def Outline.check : Value → Checked Outline :=
  Check.record fun ms =>
    Outline.mk
      <$> Check.optional "folders" [] (Check.listOf Folder.check) ms
      <*> Check.optional "dropped_lines" [] (Check.listOf Check.text) ms

/-- An outline from a JSON text. -/
def Outline.ofJson (text : List Char) : Checked Outline :=
  match parse .strict text with
  | .ok v => check v
  | .error _ => .problem .notJson

/-! ## Lines -/

/-- The word for a kind. -/
def Kind.check : Value → Checked Kind
  | .string "folder" => .ok .folder
  | .string "file" => .ok .file
  | _ => .problem .notListed

/-- A classified line. -/
def Line.check : Value → Checked Line :=
  Check.record fun ms =>
    (fun depth kind name templateId parameters =>
      { depth := depth.val, kind, name, templateId, parameters })
      <$> Check.required "depth" (Check.atLeast 0) ms
      <*> Check.required "kind" Kind.check ms
      <*> Check.optional "name" "" Check.text ms
      <*> Check.optional "template_id" "" Check.text ms
      <*> Check.optional "parameters" none (Check.nullable Scope.check) ms

end Stencil
