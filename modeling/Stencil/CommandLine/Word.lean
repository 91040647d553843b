import Stencil.Text.Digit
import Stencil.Text.Pieces

/-!
# `Stencil.CommandLine.Word` — the words of a command line

## Contents
- **Options.** An `Opt` has one or two spellings; some take a value.
- **Words.** `Word.classify?` tells options from arguments. The spelling of a long option may be cut
  short as long as only one option starts that way, and its value may be attached with an equals
  sign. Letters may share a dash if all of them are options, also behind an equals sign. A word that
  looks like a negative number, or holds a space, is an argument even behind a dash.
-/

namespace Stencil.CommandLine

open Text

/-- An option. -/
inductive Opt where
  /-- Shows how the command is used. -/
  | help
  /-- Parameters as JSON. -/
  | parameters
  /-- A file of parameters. -/
  | parametersFile
  /-- The place of the manifest. -/
  | manifest
  /-- Uses folders that exist. -/
  | allowExisting
  /-- Writes nothing. -/
  | dryRun
  /-- How many files are written at once. -/
  | maxParallel
  /-- Leaves progress out. -/
  | quiet
  deriving Repr, DecidableEq

/-- Whether an option comes with a value. -/
def Opt.takesValue : Opt → Bool
  | .parameters | .parametersFile | .manifest | .maxParallel => true
  | .help | .allowExisting | .dryRun | .quiet => false

/-- The long spellings. -/
def longSpellings : List (String × Opt) :=
  [("--help", .help), ("--parameters", .parameters), ("--parameters-file", .parametersFile),
    ("--manifest", .manifest), ("--allow-existing", .allowExisting), ("--dry-run", .dryRun),
    ("--max-parallel", .maxParallel), ("--quiet", .quiet)]

/-- The option of a letter. -/
def shortOpt? (c : Char) : Option Opt :=
  if c = 'h' then some .help else if c = 'q' then some .quiet else none

/-- The option that is spelled so in full. -/
def opt? (cs : List Char) : Option Opt :=
  match cs with
  | ['-', c] => shortOpt? c
  | _ => (longSpellings.find? fun s => s.1.toList == cs).map Prod.snd

/-- A word of a command line. -/
inductive Word where
  /-- An option, perhaps with a value behind an equals sign. -/
  | opt (o : Opt) (value : Option String)
  /-- The letter of an option, and the letters that share its dash. -/
  | letters (first : Opt) (more : List Char)
  /-- An option that there is not. -/
  | unknown
  /-- An argument. -/
  | argument (s : String)
  deriving Repr, DecidableEq

/-- Whether a text looks like a negative number. A line break at the end does not matter. -/
def looksNegative : List Char → Bool
  | '-' :: cs =>
    let isDigit := fun c => (digitValue? c).isSome
    let cs := if cs.getLast? = some '\n' then cs.dropLast else cs
    match cs.dropWhile isDigit with
    | [] => !cs.isEmpty
    | '.' :: fraction => !fraction.isEmpty && fraction.all isDigit
    | _ => false
  | _ => false

namespace Word

/-- The spelling in a word and the value attached to it. -/
def splitValue (cs : List Char) : List Char × Option String :=
  match cs.dropWhile (· != '=') with
  | _ :: value => (cs.takeWhile (· != '='), some (String.ofList value))
  | [] => (cs, none)

/-- An option with a value attached to it. What is attached to a single letter are further letters. -/
def attached (spelling : List Char) (o : Opt) (value : String) : Word :=
  if spelling.length = 2 ∧ value ≠ "" then .letters o value.toList else .opt o (some value)

/-- A word with a dash that is no option. -/
def classifyRest (cs : List Char) : Word :=
  if looksNegative cs || cs.contains ' ' then .argument (String.ofList cs) else .unknown

/-- The options whose long spelling starts so. -/
def candidates (start : List Char) : List Opt :=
  (longSpellings.filter fun s => start.isPrefixOf s.1.toList).map Prod.snd

/-- A word that starts with a dash and something behind it, and is no option in full. There is none if several options
    are spelled that way. -/
def classifyPartly? (cs : List Char) : Option Word :=
  let (start, value) := splitValue cs
  match cs with
  | '-' :: '-' :: _ =>
    match candidates start with
    | [] => some (classifyRest cs)
    | [o] => some (.opt o value)
    | _ => none
  | '-' :: c :: more =>
    match shortOpt? c with
    | some o => some (.letters o more)
    | none => some (classifyRest cs)
  | _ => some (classifyRest cs)

/-- What a word is, if it is not ambiguous. -/
def classify? (s : String) : Option Word :=
  match s.toList with
  | '-' :: c :: cs =>
    match opt? ('-' :: c :: cs) with
    | some o => some (.opt o none)
    | none =>
      let (start, value) := splitValue ('-' :: c :: cs)
      match opt? start, value with
      | some o, some value => some (attached start o value)
      | _, _ => classifyPartly? ('-' :: c :: cs)
  | _ => some (.argument s)

/-- The options of letters that share a dash, if every letter is one. -/
def optsOf? (letters : List Char) : Option (List Opt) := letters.mapM shortOpt?

/-- A spelling that is cut short, and one that fits two options. -/
example : classify? "--man=x" = some (.opt .manifest (some "x")) ∧ classify? "--m" = none := by
  decide +kernel

/-- A number below zero, and letters that share a dash. -/
example : classify? "-5" = some (.argument "-5") ∧ classify? "-qh" = some (.letters .quiet ['h'])
    ∧ classify? "-q=h" = some (.letters .quiet ['h']) := by
  decide +kernel

end Word

end Stencil.CommandLine
