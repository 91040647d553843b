import Stencil.FileSystem.Basic
import Stencil.Json.Check
import Stencil.Json.Fault
import Stencil.Number.Limit
import Stencil.Text.CodePoints
import Stencil.Text.Utf8
import Stencil.Yaml.Fault

/-!
# `Stencil.Run.Fault` — what can go wrong

A `Fault` says why a run, or a part of it, did not come to its end. `Fault.message` puts it into
words.
-/

namespace Stencil

open Text

/-- What generation was about to do. -/
inductive Action where
  /-- Create a folder. -/
  | createFolder
  /-- Read a template. -/
  | readTemplate
  /-- Write a file. -/
  | writeFile
  deriving Repr, DecidableEq

/-- The failure of an action, in words. -/
def Action.failure : Action → String
  | .createFolder => "cannot create folder"
  | .readTemplate => "cannot read template"
  | .writeFile => "cannot write file"

/-- Why something did not come to its end. -/
inductive Fault where
  /-- The system refused a path. -/
  | system (cause : Cause) (path : Path)
  /-- A path holds the character that ends a path. -/
  | nullCharacter
  /-- A file holds bytes that are no text. -/
  | undecodable (u : Utf8.Undecodable)
  /-- A path or a content is no text. -/
  | unwritable (u : CodePoints.Unwritable)
  /-- The outline document is not there. -/
  | outlineMissing (path : String)
  /-- The system refused a step of the generation. -/
  | generation (action : Action) (path : Path) (cause : Cause)
  /-- Parameters are no JSON object of strings. -/
  | parametersUnreadable (raw : String)
  /-- A parameters file does not hold a mapping. -/
  | parametersNoMapping (path : Path)
  /-- A parameter in a file is a list or a mapping. -/
  | parameterNoScalar (name : String) (path : Path)
  /-- A parameters file is no YAML, or holds a scalar that is no value. -/
  | yaml (f : Yaml.Fault)
  /-- A parameters file needs another reader, which makes nothing of it. -/
  | yamlReader (f : Yaml.ReaderFault)
  /-- Settings or an outline do not pass the check. -/
  | invalid (issues : List Json.Issue)
  /-- A text is no JSON. -/
  | json (text : List Char) (f : Json.Fault)
  /-- A text is no integer. -/
  | numeral (text : String) (f : Number.NumeralFault)
  /-- A text is no decimal number. -/
  | decimal (text : String)
  /-- An integer has more digits than are written. -/
  | oversizedInteger
  /-- A manifest has more levels of groups than are written. -/
  | tooManyLevels
  /-- A number of seconds is infinite or none. -/
  | noDuration
  /-- The double dash stands where an argument is needed. -/
  | lostArgument
  /-- The double dash stands where a number is needed. -/
  | lostNumber
  /-- The console cannot show a text that is marked up. -/
  | markup (message : String)
  deriving Repr, DecidableEq

namespace Fault

/-- A refusal at a path. -/
def refused (r : Refusal) (path : Path) : Fault :=
  match r with
  | .cause c => .system c path
  | .nullCharacter => .nullCharacter

/-- A refusal of a step of the generation. -/
def duringGeneration (action : Action) (r : Refusal) (path : Path) : Fault :=
  match r with
  | .cause c => .generation action path c
  | .nullCharacter => .nullCharacter

/-- The quoted form of a text, of which no more than 200 characters are shown. -/
def quotedStart (s : String) : String := String.ofList ((quoted s).toList.take 200)

/-- The fault in words. -/
def message : Fault → String
  | .system cause path => cause.message path
  | .nullCharacter => "embedded null byte"
  | .undecodable u => u.message
  | .unwritable u => u.message
  | .outlineMissing path => "Outline file not found: " ++ path
  | .generation action path cause =>
    path.text ++ ": " ++ action.failure ++ " (" ++ cause.message path ++ ")"
  | .parametersUnreadable raw => "Parameters must be a JSON object of strings: " ++ raw
  | .parametersNoMapping path => "Parameters file must contain a mapping: " ++ path.text
  | .parameterNoScalar name path => "Parameter '" ++ name ++ "' in " ++ path.text ++ " must be a scalar"
  | .yaml (.badValue v) => v.message
  | .yaml (.malformed _) => "malformed YAML"
  | .yaml .unsupported => "unsupported YAML"
  | .yamlReader f => f.message
  | .invalid issues => toString issues.length ++ " invalid fields"
  | .json text f => f.message text
  | .numeral text .malformed => "invalid literal for int() with base 10: " ++ quotedStart text
  | .numeral _ (.tooLong digits) => Number.tooLongToRead digits
  | .decimal text => "could not convert string to float: " ++ quoted text
  | .oversizedInteger => Number.tooLongToWrite
  | .tooManyLevels => "Circular reference detected (depth exceeded)"
  | .noDuration => "cannot convert float NaN to integer"
  | .lostArgument => "expected str, bytes or os.PathLike object, not list"
  | .lostNumber => "'<' not supported between instances of 'list' and 'int'"
  | .markup message => message

end Fault

end Stencil
