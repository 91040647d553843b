import Stencil.CommandLine.Command

/-!
# `Stencil.CommandLine.Reach` — the places that a command leads to

## Contents
- **Reach.** `reach` lists the paths that a command line leads to, as far as what is on the disk
  tells: first the places that it names, then, once the outline and the parameters can be read, the
  templates and everything that will be made.
- **Locations.** A path is followed through every folder on its way, so each of these counts as
  well.
-/

namespace Stencil.CommandLine

/-- The paths that arguments name. -/
def placesOf (a : Arguments) : List Path :=
  ([a.outline, a.templates, a.options.parametersFile, a.options.manifest].filterMap nonempty?).map .ofString

/-- The paths that a run with settings leads to. -/
def pathsOf (s : Settings) (o : Outline) : List Path :=
  let files := o.walk.flatMap fun w => w.2.files
  let plan : Generator := { settings := { s with dryRun := true }, quiet := true }
  let made := match (plan.generate o).exec {} with
    | (.ok r, _) => r.folders ++ r.files
    | (.error _, _) => []
  s.resolvedManifestPath :: files.map s.templatePath ++ made

/-- The settings and the outline of arguments. -/
def readRun (a : Arguments) : Job (Settings × Outline) := do
  let outline ← given a.outline
  let templates ← given a.templates
  let g ← generatorOf a (.ofString outline) (.ofString templates) usualWrites
  return (g.settings, ← Job.readOutline outline)

/-- The paths that a command line leads to. -/
def reach (argv : List String) (disk : FileSystem) : List Path :=
  match Request.ofWords argv with
  | .run a =>
    match (readRun a).exec { disk } with
    | (.ok (s, o), _) => placesOf a ++ pathsOf s o
    | (.error _, _) => placesOf a
  | _ => []

/-- Where a name leads from a location. -/
def stepTo (l : Location) (name : String) : Location := if name = ".." then l.dropLast else l ++ [name]

/-- The locations that names lead through. -/
def locationsFrom (l : Location) : List String → List Location
  | [] => [l]
  | name :: names => l :: locationsFrom (stepTo l name) names

/-- The locations that a path leads through. -/
def locationsOf (workingFolder : Location) (p : Path) : List Location :=
  locationsFrom (if p.root = .here then workingFolder else []) p.parts

end Stencil.CommandLine
