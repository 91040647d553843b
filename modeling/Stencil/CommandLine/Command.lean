import Stencil.CommandLine.Arguments
import Stencil.Run.Duration
import Stencil.Run.Parameters
import Stencil.Run.Steps

/-!
# `Stencil.CommandLine.Command` — the command

## Contents
- **Checks.** Before a run, the outline has to exist, the templates have to be a folder, and at
  least one file has to be written at once. The first check that fails is reported and ends the
  command.
- **Settings.** The parameters of a file come first, those of the command line are laid over them.
- **Ending.** A run that comes to its end is summed up in a table. `commandOn` gives the exit code; a
  fault that it does not report is its own. `command` is the command on a host that makes everything in turn
  and displays everything.
-/

namespace Stencil.CommandLine

open Console Text

/-- The exit code of success. -/
def exitSuccess : Nat := 0

/-- The exit code of a command that was reported to fail. -/
def exitFailure : Nat := 1

/-- The exit code of a misuse. -/
def exitMisuse : Nat := 2

/-- The report of an error. -/
def errorReport (message : String) : Event := error ("Error: " ++ message)

/-- Reports an error and ends the command. -/
def fail (message : String) : Job Nat := do
  Job.print (errorReport message)
  return exitFailure

/-- A place, which must not be lost. -/
def given (place : Option String) : Job String :=
  match place with
  | some s => return s
  | none => throw .lostArgument

/-- The target path. Unlike the other places it is not a path but a text of the settings, and if it is lost they are
    invalid. -/
def givenTarget (target : Option String) : Job String :=
  match target with
  | some s => return s
  | none => throw (.invalid [⟨[.name "target_path"], .notText⟩])

/-- A number, which must not be lost. -/
def givenNumber (n : Option Int) : Job Int :=
  match n with
  | some n => return n
  | none => throw .lostNumber

/-- A text that is not empty. -/
def nonempty? (s : Option String) : Option String := s.filter (· ≠ "")

/-- Whether a fault in making the settings is reported. -/
def isReportedEarly : Fault → Bool
  | .yaml (.malformed _) => false
  | .yaml (.badValue .beyondWord) => false
  | .yaml (.badValue .beyondDouble) => false
  | .yamlReader .malformed => false
  | .yamlReader (.breakdown _) => false
  | .lostArgument => false
  | .lostNumber => false
  | _ => true

/-- Whether a fault of the run is reported. -/
def isReportedLate : Fault → Bool
  | .generation .. => true
  | .outlineMissing _ => true
  | .system .notFound _ => true
  | _ => false

/-! ## Settings -/

/-- The parameters that the options give. -/
def parametersWith (reader : Yaml.Reader) (o : Options) : Job Parameters := do
  let ofFile ←
    match nonempty? o.parametersFile with
    | some file => Parameters.ofFile <$> Job.loadParametersWith reader (Path.ofString file)
    | none => pure {}
  match nonempty? o.parameters with
  | none => return ofFile
  | some raw =>
    match Scope.ofJsonText raw with
    | .ok s => return ofFile.overlay s
    | .error f => throw f

/-- How the arguments let a run behave, apart from the number of writes. -/
def generatorWith (reader : Yaml.Reader) (a : Arguments) (outline templates : Path) (writes : { n : Nat // 1 ≤ n }) :
    Job Generator := do
  let parameters ← parametersWith reader a.options
  let project ← given a.project
  let targetPath ← givenTarget a.target
  let settings : Settings := {
    projectPath := Path.ofString project
    targetPath
    templatesDir := templates
    inputPath := outline
    parameters := parameters.scope
    manifestPath := (nonempty? a.options.manifest).map Path.ofString
    allowExisting := a.options.allowExisting
    dryRun := a.options.dryRun
    maxParallelWrites := writes }
  return { settings, quiet := a.options.quiet, loose := parameters.loose }

/-- How the arguments let a run behave, if there is no other reader for parameters. -/
def generatorOf (a : Arguments) (outline templates : Path) (writes : { n : Nat // 1 ≤ n }) : Job Generator :=
  generatorWith .none a outline templates writes

/-! ## The command -/

/-- The table that sums up a run. -/
def summaryRows (s : Summary) (duration : String) : List (String × String) :=
  [("Folders", toString s.folders), ("Files", toString s.files),
    ("Skipped lines", toString s.dropped.length), ("Unresolved", toString s.unresolved.length),
    ("Manifest", (s.manifest.map Path.text).getD "-"), ("Duration", duration)]

/-- The last message of a run. -/
def farewell (dryRun : Bool) : Event :=
  success (if dryRun then "Dry run complete, nothing was written." else "Done")

section Command

variable (host : Host)

/-- Runs and sums the run up. -/
def runWith (g : Generator) (elapsed : Duration) : Job Nat := do
  match ← Job.attempt (g.runOn host) with
  | .error f =>
    if isReportedLate f then
      Job.print (errorReport (escapeMarkup f.message))
      Job.print (error "Generation failed.")
      return exitFailure
    else throw f
  | .ok summary =>
    match elapsed.text with
    | .error f => throw f
    | .ok duration =>
      host.displayAll (summaryTable (summaryRows summary duration) "modulegen")
      Job.print (farewell g.settings.dryRun)
      return exitSuccess

/-- Checks the arguments and runs. -/
def runArguments (a : Arguments) (elapsed : Duration) : Job Nat := do
  let outline := Path.ofString (← given a.outline)
  if !(← Job.ask (·.holds outline) (Fault.refused · outline)) then
    fail ("Outline file not found: " ++ escapeMarkup outline.text)
  else
    let templates := Path.ofString (← given a.templates)
    if !(← Job.ask (·.holdsFolder templates) (Fault.refused · templates)) then
      fail ("Templates directory not found: " ++ escapeMarkup templates.text)
    else
      let writes ← givenNumber a.options.maxParallel
      if h : 1 ≤ writes then
        match ← Job.attempt (generatorWith host.reader a outline templates ⟨writes.toNat, by omega⟩) with
        | .ok g => runWith host g elapsed
        | .error f => if isReportedEarly f then fail (escapeMarkup f.message) else throw f
      else fail ("--max-parallel must be at least 1, got " ++ toString writes)

/-- Does what a command line asks for on a host; a run takes the given time. -/
def commandOn (argv : List String) (elapsed : Duration) : Job Nat :=
  match Request.ofWords argv with
  | .help => return exitSuccess
  | .misuse => return exitMisuse
  | .run a => runArguments host a elapsed

end Command

/-- Does what a command line asks for, on a host that makes everything in turn and displays everything. -/
def command (argv : List String) (elapsed : Duration) : Job Nat := commandOn {} argv elapsed

end Stencil.CommandLine
