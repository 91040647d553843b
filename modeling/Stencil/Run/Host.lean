import Stencil.Run.Parameters
import Stencil.Run.Work

/-!
# `Stencil.Run.Host` — what a run leaves to others

## Contents
- **Hosts.** A `Host` decides in which order folders and files are made, shows what is printed, and reads what this
  library does not read.
- **Display.** `Host.display` prints an event, unless the console has an objection to it.

Not every text is marked up as it should be: the title of a tree, the paths and keys of a warning and the cells of a
table go to the console with brackets in them that it may take for tags. Such an event is displayed. All other events
are printed, and nothing is said of consoles that cannot print them.
-/

namespace Stencil

open Console

/-- What a run leaves to others. -/
structure Host where
  /-- Who decides in which order folders and files are made. -/
  scheduler : Scheduler := .inTurn
  /-- What the console has against an event, if it cannot show it. -/
  objection? : Event → Option String := fun _ => none
  /-- Who reads the YAML that this library does not read. -/
  reader : Yaml.Reader := .none

namespace Host

variable (host : Host)

/-- Prints an event, unless the console has an objection. -/
def display (e : Event) : Job Unit :=
  match host.objection? e with
  | none => Job.print e
  | some message => throw (.markup message)

/-- Prints events, up to the first one to which the console has an objection. -/
def displayAll : List Event → Job Unit
  | [] => return ()
  | e :: es => do
    host.display e
    displayAll es

end Host

end Stencil
