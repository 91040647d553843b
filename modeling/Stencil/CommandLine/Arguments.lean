import Stencil.CommandLine.Word
import Stencil.Number.Numeral

/-!
# `Stencil.CommandLine.Arguments` — what a command line asks for

## Contents
- **Arguments.** Four places have to be given, in order; options may stand between them. A double
  dash ends the options.
- **Requests.** `Request.ofWords` reads a command line: it is a call for help, a misuse, or a run
  with its arguments. The whole line is classified first, then it is read from left to right, and
  help is given where it is asked for. What is missing or left over counts at the end.
-/

namespace Stencil.CommandLine

open Number

/-- What the options say. -/
structure Options where
  /-- Parameters as JSON. -/
  parameters : Option String := none
  /-- A file of parameters. -/
  parametersFile : Option String := none
  /-- The place of the manifest. -/
  manifest : Option String := none
  /-- Whether folders that exist are used. -/
  allowExisting : Bool := false
  /-- Whether nothing is written. -/
  dryRun : Bool := false
  /-- How many files are written at once; the number is lost if it is given as a double dash. -/
  maxParallel : Option Int := some 8
  /-- Whether progress is left out. -/
  quiet : Bool := false
  deriving Repr, DecidableEq

/-- The arguments of a run. A place is lost if the command line has a second double dash for it. -/
structure Arguments where
  /-- The project file. -/
  project : Option String
  /-- The target path. -/
  target : Option String
  /-- The folder of the templates. -/
  templates : Option String
  /-- The outline document. -/
  outline : Option String
  /-- What the options say. -/
  options : Options
  deriving Repr, DecidableEq

/-- What a command line asks for. -/
inductive Request where
  /-- A run. -/
  | run (a : Arguments)
  /-- How the command is used. -/
  | help
  /-- Nothing that makes sense. -/
  | misuse
  deriving Repr, DecidableEq

/-- A command line as far as it is read. -/
structure Reading where
  /-- The places given so far. -/
  places : List (Option String) := []
  /-- What the options say so far. -/
  options : Options := {}
  /-- Whether something was left over. -/
  surplus : Bool := false
  deriving Repr, DecidableEq

namespace Reading

/-- How many places there are. -/
def placeCount : Nat := 4

/-- Takes an argument for the next place. -/
def take (r : Reading) (place : Option String) : Reading :=
  if r.places.length < placeCount then { r with places := r.places ++ [place] }
  else { r with surplus := true }

/-- A text that is read as a place or a value. A double dash is lost there. -/
def unlessDashes (s : String) : Option String := if s = "--" then none else some s

/-- Takes the arguments behind the double dash. If the argument before it took a place, the double dash goes with that one;
    otherwise it goes with the first argument behind it, or is left over. -/
def takeLater (r : Reading) (goesBefore : Bool) : List String → Reading
  | [] => if goesBefore then r else { r with surplus := true }
  | s :: ss =>
    let r := r.take (if goesBefore then unlessDashes s else some s)
    (ss.map unlessDashes).foldl take r

/-- Gives an option that takes a value its value. A double dash as the value is lost, and with it what was given
    before. -/
def setValue (r : Reading) (value : String) : Opt → Except Request Reading
  | .parameters => .ok { r with options.parameters := unlessDashes value }
  | .parametersFile => .ok { r with options.parametersFile := unlessDashes value }
  | .manifest => .ok { r with options.manifest := unlessDashes value }
  | .maxParallel =>
    match unlessDashes value with
    | none => .ok { r with options.maxParallel := none }
    | some s =>
      match integer s.toList with
      | .ok n => .ok { r with options.maxParallel := some n }
      | .error _ => .error .misuse
  | _ => .error .misuse

/-- Sets an option that takes no value. -/
def set (r : Reading) : Opt → Except Request Reading
  | .allowExisting => .ok { r with options.allowExisting := true }
  | .dryRun => .ok { r with options.dryRun := true }
  | .quiet => .ok { r with options.quiet := true }
  | .help => .error .help
  | _ => .error .misuse

/-- Sets several options. -/
def setAll (r : Reading) : List Opt → Except Request Reading
  | [] => .ok r
  | o :: os => do (← r.set o).setAll os

/-- Takes the words before the double dash. The flag of the result tells whether the last of them took a place; `placed`
    is that flag for the words before. -/
def takeWords (r : Reading) (placed : Bool) : List Word → Except Request (Reading × Bool)
  | [] => .ok (r, placed)
  | .argument s :: ws => (r.take (some s)).takeWords (decide (r.places.length < placeCount)) ws
  | .unknown :: ws => { r with surplus := true }.takeWords false ws
  | .letters o more :: ws =>
    match Word.optsOf? more with
    | none => .error .misuse
    | some os => do
      let r ← r.setAll (o :: os)
      r.takeWords false ws
  | .opt o (some value) :: ws => do
    let r ← r.setValue value o
    r.takeWords false ws
  | .opt o none :: ws =>
    if o.takesValue then
      match ws with
      | .argument s :: ws => do
        let r ← r.setValue s o
        r.takeWords false ws
      | _ => .error .misuse
    else do
      let r ← r.set o
      r.takeWords false ws

/-- The request of a command line that is read to its end. -/
def request (r : Reading) : Request :=
  match r.places, r.surplus with
  | [project, target, templates, outline], false =>
    .run { project, target, templates, outline, options := r.options }
  | _, _ => .misuse

end Reading

namespace Request

/-- Classifies words; one that is ambiguous spoils all. -/
def classifyAll? : List String → Option (List Word)
  | [] => some []
  | s :: ss => do
    let w ← Word.classify? s
    let ws ← classifyAll? ss
    return w :: ws

/-- What is read from the words before the double dash and, if there is one, those behind it. -/
def ofParts (before : List Word) (later : Option (List String)) : Except Request Reading := do
  let (r, placed) ← ({} : Reading).takeWords false before
  match later with
  | none => return r
  | some ss => return r.takeLater placed ss

/-- What a command line asks for. -/
def ofWords (argv : List String) : Request :=
  let before := argv.takeWhile (· != "--")
  let later := match argv.dropWhile (· != "--") with
    | [] => none
    | _ :: ss => some ss
  match classifyAll? before with
  | none => .misuse
  | some ws =>
    match ofParts ws later with
    | .ok r => r.request
    | .error e => e

/-- Options may stand anywhere. -/
example : ofWords ["-q", "p", "--max-parallel=3", "t", "--man", "m", "x", "o", "--dry-run"]
    = .run { project := some "p", target := some "t", templates := some "x", outline := some "o"
             options := { manifest := some "m", dryRun := true, maxParallel := some 3, quiet := true } } := by
  decide +kernel

end Request

end Stencil.CommandLine
