import Stencil.Json.Parser
import Stencil.Run.Fault
import Stencil.Settings.Json

/-!
# `Stencil.Run.Environment` — settings from variables

Seven variables of the environment give settings. A variable that is empty counts as one that is not
there. The parameters are a JSON object in the lenient dialect, in which a repeated name has its last
value before anything is checked; the number of writes is an integer as a person types it. What the
variables say is then checked like stored settings.
-/

namespace Stencil

open Json Number

/-- Variables with their values. -/
abbrev Environment := List (String × String)

namespace Environment

/-- The value of a variable that is not empty. -/
def get? (env : Environment) (name : String) : Option String :=
  (Entries.get? name env).filter (· ≠ "")

/-- The variables whose values are taken as they are, each with the field that it gives. -/
def textVariables : List (String × String) :=
  [("MODULEGEN_PROJECT_PATH", "project_path"), ("MODULEGEN_TARGET_PATH", "target_path"),
    ("MODULEGEN_TEMPLATES_DIR", "templates_dir"), ("MODULEGEN_INPUT_PATH", "input_path"),
    ("MODULEGEN_MANIFEST_PATH", "manifest_path")]

/-- The fields whose values are taken as they are. -/
def textFields (env : Environment) : List (String × Value) :=
  textVariables.filterMap fun v => (env.get? v.1).map fun s => (v.2, .string s)

/-- The field of the parameters. -/
def parametersField (env : Environment) : Except Fault (List (String × Value)) :=
  match env.get? "MODULEGEN_PARAMETERS" with
  | none => .ok []
  | some raw =>
    match parse .lenient raw.toList with
    | .ok v => .ok [("parameters", v)]
    | .error f => .error (.json raw.toList f)

/-- The field of the number of writes. -/
def writesField (env : Environment) : Except Fault (List (String × Value)) :=
  match env.get? "MODULEGEN_MAX_PARALLEL_WRITES" with
  | none => .ok []
  | some raw =>
    match integer raw.toList with
    | .ok n => .ok [("max_parallel_writes", .int n)]
    | .error f => .error (.numeral raw f)

/-- The settings that the variables give. -/
def settings (env : Environment) : Except Fault Settings := do
  let parameters ← env.parametersField
  let writes ← env.writesField
  match Settings.checkMembers (env.textFields ++ parameters ++ writes) with
  | .ok s => return s
  | .failed issues => throw (.invalid issues)

@[simp] theorem get?_nil (name : String) : get? [] name = none := rfl

end Environment

end Stencil
