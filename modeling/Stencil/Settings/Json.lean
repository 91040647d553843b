import Stencil.Json.Check
import Stencil.Json.Parser
import Stencil.Json.Printer
import Stencil.Scope.Json
import Stencil.Settings.Basic

/-!
# `Stencil.Settings.Json` — settings as JSON

Settings are stored as a JSON object with a member for each field, in the order of the fields.
Reading them back checks every member and reports all that is wrong; a member that is left out has
its usual value, unknown members are passed over.
-/

namespace Stencil

open Json

/-- A path. -/
def Path.check : Value → Checked Path
  | .string s => .ok (.ofString s)
  | _ => .problem .notPath

namespace Settings

/-- The value of settings. -/
def toJson (s : Settings) : Value :=
  .object [
    ("project_path", .string s.projectPath.text),
    ("target_path", .string s.targetPath),
    ("templates_dir", .string s.templatesDir.text),
    ("input_path", .string s.inputPath.text),
    ("parameters", s.parameters.toJson),
    ("manifest_path", match s.manifestPath with | some p => .string p.text | none => .null),
    ("allow_existing", .bool s.allowExisting),
    ("dry_run", .bool s.dryRun),
    ("max_parallel_writes", .int s.maxParallelWrites.val)]

/-- The text in which settings are stored. -/
def text (s : Settings) : String := s.toJson.text .indented

/-- Settings from the members of an object. -/
def checkMembers (ms : List (String × Value)) : Checked Settings :=
  let usual : Settings := {}
  Settings.mk
    <$> Check.optional "project_path" usual.projectPath Path.check ms
    <*> Check.optional "target_path" usual.targetPath Check.text ms
    <*> Check.optional "templates_dir" usual.templatesDir Path.check ms
    <*> Check.optional "input_path" usual.inputPath Path.check ms
    <*> Check.optional "parameters" usual.parameters Scope.check ms
    <*> Check.optional "manifest_path" usual.manifestPath (Check.nullable Path.check) ms
    <*> Check.optional "allow_existing" usual.allowExisting Check.flag ms
    <*> Check.optional "dry_run" usual.dryRun Check.flag ms
    <*> Check.optional "max_parallel_writes" usual.maxParallelWrites (Check.atLeast 1) ms

/-- Settings from a value. -/
def check : Value → Checked Settings := Check.record checkMembers

/-- Settings from a JSON text. -/
def ofText (text : List Char) : Checked Settings :=
  match parse .strict text with
  | .ok v => check v
  | .error _ => .problem .notJson

end Settings

end Stencil
