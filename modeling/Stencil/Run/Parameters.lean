import Stencil.Run.Job
import Stencil.Scope.Json
import Stencil.Yaml.Document

/-!
# `Stencil.Run.Parameters` — where parameters come from

## Contents
- **JSON.** Parameters are given as an object of strings.
- **Files.** A file holds a YAML mapping of scalars. The values are written as text; nothing becomes
  the empty text. Keys whose texts are equal are one parameter. An escape can make a name or a value
  that is no text.
- **Runs.** `Parameters` are those of a run. A name that is no text is left out, because no placeholder
  has such a key. A value that is no text is in the scope as it is shown; what it stands in for is kept
  beside.
-/

namespace Stencil

open Text Yaml

/-- The parameters of a JSON text. -/
def Scope.ofJsonText (raw : String) : Except Fault Scope :=
  match Scope.ofJson? raw.toList with
  | some s => .ok s
  | none => .error (.parametersUnreadable raw)

theorem Scope.ofJsonText_eq_ok_iff {raw : String} {s : Scope} : ofJsonText raw = .ok s ↔ ofJson? raw.toList = some s := by
  unfold ofJsonText
  cases ofJson? raw.toList <;> simp

/-! ## Files -/

/-- The names and values in a file, in order. -/
abbrev FileParameters := List (CodePoints × CodePoints)

namespace FileParameters

/-- What is written for a parameter's value. -/
def valueText? (d : Datum) : Option CodePoints := if d = .null then some (.ofString "") else d.toText?

/-- Adds the entries of a mapping, which has to be one of scalars. -/
def addContents (path : Path) (ps : FileParameters) : List (Datum × Content) → Except Fault FileParameters
  | [] => .ok ps
  | (k, content) :: es =>
    match k.toText?, content with
    | none, _ => .error .oversizedInteger
    | some name, .collection => .error (.parameterNoScalar name.shown path)
    | some name, .scalar d =>
      match valueText? d with
      | none => .error .oversizedInteger
      | some value => addContents path (Entries.insert name value ps) es

/-- The parameters that a document gives. -/
def ofDocument (path : Path) : Document → Except Fault FileParameters
  | .nothing => .ok []
  | .mapping es => addContents path [] es
  | .other => .error (.parametersNoMapping path)

/-- The parameters that the text of a file gives. What this library does not read is given to the other reader. -/
def ofYamlTextWith (reader : Reader) (path : Path) (text : List Char) : Except Fault FileParameters :=
  match Document.ofText text with
  | .error .unsupported =>
    match reader text with
    | .error f => .error (.yamlReader f)
    | .ok d => ofDocument path d
  | .error f => .error (.yaml f)
  | .ok d => ofDocument path d

/-- The parameters that the text of a file gives, if there is no other reader. -/
def ofYamlText (path : Path) (text : List Char) : Except Fault FileParameters := ofYamlTextWith .none path text

end FileParameters

/-- Reads the parameters of a file. -/
def Job.loadParametersWith (reader : Reader) (path : Path) : Job FileParameters := do
  let text ← Job.readText path (Fault.refused · path)
  match FileParameters.ofYamlTextWith reader path text.toList with
  | .ok ps => return ps
  | .error f => throw f

/-- Reads the parameters of a file, if there is no other reader. -/
def Job.loadParameters (path : Path) : Job FileParameters := Job.loadParametersWith .none path

/-! ## Runs -/

/-- The parameters of a run. -/
structure Parameters where
  /-- The parameters, each with a text as its value. -/
  scope : Scope := .empty
  /-- For some of them the code points that their value stands in for, which are no text. -/
  loose : List (String × CodePoints) := []
  deriving Repr

namespace Parameters

/-- Gives a parameter of a run its value. -/
def insert (p : Parameters) (name : String) (value : CodePoints) : Parameters where
  scope := p.scope.insert name value.shown
  loose :=
    match value.toString? with
    | some _ => p.loose.filter (·.1 ≠ name)
    | none => Entries.insert name value p.loose

/-- The parameters of a run that a file gives. -/
def ofFile (ps : FileParameters) : Parameters :=
  ps.foldl (fun p e => (e.1.toString?.map fun name => p.insert name e.2).getD p) {}

/-- Lays a scope over parameters. -/
def overlay (p : Parameters) (top : Scope) : Parameters where
  scope := p.scope.overlay top
  loose := p.loose.filter fun e => (top.get? e.1).isNone

end Parameters

end Stencil
