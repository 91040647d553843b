import Stencil.Proofs.CommandLine.DryRun
import Stencil.Proofs.Run.Faults

/-!
# `Stencil.Proofs.CommandLine.Ending` — how the command ends

## Contents
- **Endings.** `Ending` lists how a command can end: with success and a farewell, with a failure and the report of an
  error, or with a fault that it does not report. `Unreported` lists these.
- **Parts.** Jobs that follow each other end so if the first one raises unreported faults only, and what follows ends
  so (`Ends.bind`).
- **The command.** Every run that a command line asks for ends in one of these ways (`ending_of_command`). Faults that
  are not reported do occur (`command_leaves_undecodable`).
-/

namespace Stencil.CommandLine

open Console Text

/-! ## Endings -/

/-- The faults that the command does not report. -/
inductive Unreported : Fault → Prop
  /-- The system refuses a path, and not because nothing is there. -/
  | system {cause : Cause} {path : Path} (h : cause ≠ .notFound) : Unreported (.system cause path)
  | nullCharacter : Unreported .nullCharacter
  | undecodable (u : Utf8.Undecodable) : Unreported (.undecodable u)
  | unwritable (u : CodePoints.Unwritable) : Unreported (.unwritable u)
  | tooManyLevels : Unreported .tooManyLevels
  | malformedYaml (flaw : Yaml.Flaw) : Unreported (.yaml (.malformed flaw))
  | beyondWord : Unreported (.yaml (.badValue .beyondWord))
  | beyondDouble : Unreported (.yaml (.badValue .beyondDouble))
  | malformedElsewhere : Unreported (.yamlReader .malformed)
  | breakdown (message : String) : Unreported (.yamlReader (.breakdown message))
  | lostArgument : Unreported .lostArgument
  | lostNumber : Unreported .lostNumber
  | markup (message : String) : Unreported (.markup message)

/-- How a command ends that was to run, given what it has printed by then. -/
inductive Ending : Except Fault Nat → List Event → Prop
  /-- It succeeds; the farewell is the last thing printed. -/
  | success {printed : List Event} (dryRun : Bool) (h : [farewell dryRun] <:+ printed) :
      Ending (.ok exitSuccess) printed
  /-- It fails before the run; the report is the last thing printed. -/
  | refusal {printed : List Event} (message : String) (h : [errorReport message] <:+ printed) :
      Ending (.ok exitFailure) printed
  /-- The run fails; the report of its fault is printed, and that the generation has failed. -/
  | failure {printed : List Event} (f : Fault)
      (h : [errorReport (escapeMarkup f.message), error "Generation failed."] <:+ printed) :
      Ending (.ok exitFailure) printed
  /-- A fault is not reported. -/
  | fault {printed : List Event} {f : Fault} (h : Unreported f) : Ending (.error f) printed

theorem unreported_of_early {f : Fault} (h : isReportedEarly f ≠ true) : Unreported f := by
  unfold isReportedEarly at h
  split at h
  · exact .malformedYaml _
  · exact .beyondWord
  · exact .beyondDouble
  · exact .malformedElsewhere
  · exact .breakdown _
  · exact .lostArgument
  · exact .lostNumber
  · exact absurd rfl h

theorem unreported_of_late {f : Fault} (hrun : f.IsOfRun) (h : isReportedLate f ≠ true) : Unreported f := by
  cases hrun with
  | system cause path =>
    refine .system ?_
    rintro rfl
    exact h rfl
  | nullCharacter => exact .nullCharacter
  | undecodable u => exact .undecodable u
  | unwritable u => exact .unwritable u
  | tooManyLevels => exact .tooManyLevels
  | markup message => exact .markup message
  | outlineMissing path => exact absurd rfl h
  | generation action path cause => exact absurd rfl h

/-! ## Parts -/

/-- A job that ends as a command does, whatever the state. -/
def Ends (job : Job Nat) : Prop := ∀ s, Ending (Job.exec job s).1 (Job.exec job s).2.printed

section Parts

variable {α : Type} {job : Job α} {next : α → Job Nat} {p : α → Prop}

theorem Ends.bind_of_yields (h : job.Raises Unreported) (hp : job.Yields p) (hn : ∀ a, p a → Ends (next a)) :
    Ends (job >>= next) := by
  intro s
  rw [Job.exec_bind]
  split
  · next a s₁ ha => exact hn a (hp s a s₁ ha) s₁
  · next f s₁ hf => exact .fault (h s f s₁ hf)

theorem Ends.bind (h : job.Raises Unreported) (hn : ∀ a, Ends (next a)) : Ends (job >>= next) :=
  Ends.bind_of_yields h (Job.yields_true job) fun a _ => hn a

theorem ends_fail (message : String) : Ends (fail message) := fun s => .refusal message (List.suffix_append s.printed _)

theorem ends_throw {f : Fault} (h : Unreported f) : Ends (throw f) := fun _ => .fault h

end Parts

/-- What is lost is not reported. -/
theorem raises_given (place : Option String) : (given place).Raises Unreported := by
  cases place with
  | none => exact Job.raises_throw .lostArgument
  | some s => exact Job.raises_pure s

theorem raises_givenNumber (n : Option Int) : (givenNumber n).Raises Unreported := by
  cases n with
  | none => exact Job.raises_throw .lostNumber
  | some n => exact Job.raises_pure n

/-- To look for something fails, but not because it is not there. -/
theorem unreported_of_find? {fs : FileSystem} {path : Path} {r : Refusal} (h : fs.find? path = .error r) :
    Unreported (.refused r path) := by
  cases r with
  | nullCharacter => exact .nullCharacter
  | cause c =>
    refine .system ?_
    rintro rfl
    unfold FileSystem.find? at h
    split at h <;> simp_all

theorem raises_find? {α : Type} (path : Path) (answer : Option Entry → α) :
    (Job.ask (fun fs => (fs.find? path).map answer) (Fault.refused · path)).Raises Unreported := by
  refine Job.raises_ask fun disk r hr => ?_
  cases hfind : disk.find? path with
  | ok found => rw [hfind] at hr; cases hr
  | error r' =>
    rw [hfind] at hr
    cases hr
    exact unreported_of_find? hfind

/-! ## The command -/

theorem raises_displayAll (host : Host) (es : List Event) : (host.displayAll es).Raises Unreported := by
  have hdisplay (e : Event) : (host.display e).Raises Unreported := by
    unfold Host.display
    split
    · exact Job.raises_printAll [e]
    · exact Job.raises_throw (.markup _)
  induction es with
  | nil => exact Job.raises_pure ()
  | cons e es ih => exact (hdisplay e).bind fun _ => ih

theorem ends_runWith (host : Host) (g : Generator) {elapsed : Duration} {duration : String}
    (htext : elapsed.text = .ok duration) : Ends (runWith host g elapsed) := by
  refine Ends.bind_of_yields (Job.raises_attempt _) (g.raises_runOn host).attempt fun result hresult => ?_
  cases result with
  | error f =>
    dsimp only
    split
    · exact fun s => .failure f ⟨s.printed, (List.append_assoc s.printed [_] [_]).symm⟩
    · next hlate => exact ends_throw (unreported_of_late (hresult f rfl) hlate)
  | ok summary =>
    simp only [htext]
    refine Ends.bind (raises_displayAll host _) fun _ s => ?_
    exact .success g.settings.dryRun (List.suffix_append _ _)

theorem ends_runArguments (host : Host) (a : Arguments) {elapsed : Duration} {duration : String}
    (htext : elapsed.text = .ok duration) : Ends (runArguments host a elapsed) := by
  refine Ends.bind (raises_given _) fun outline => Ends.bind (raises_find? _ _) fun found => ?_
  split
  · exact ends_fail _
  refine Ends.bind (raises_given _) fun templates => Ends.bind (raises_find? _ _) fun found => ?_
  split
  · exact ends_fail _
  refine Ends.bind (raises_givenNumber _) fun writes => ?_
  split
  · refine Ends.bind (Job.raises_attempt _) fun result => ?_
    cases result with
    | ok g => exact ends_runWith host g htext
    | error f =>
      dsimp only
      split
      · exact ends_fail _
      · next hearly => exact ends_throw (unreported_of_early hearly)
  · exact ends_fail _

/-- **How the command ends.** On whatever host, a command line that asks for a run ends with success and the farewell,
    with a failure and the report of an error, or with one of the faults that are not reported. -/
theorem ending_of_command (host : Host) {argv : List String} {a : Arguments} {elapsed : Duration} {duration : String}
    (hrun : Request.ofWords argv = .run a) (htext : elapsed.text = .ok duration) (s : RunState) :
    Ending (Job.exec (commandOn host argv elapsed) s).1 (Job.exec (commandOn host argv elapsed) s).2.printed := by
  unfold commandOn
  rw [hrun]
  exact ends_runArguments host a htext s

/-- A command line without an outline on the disk. -/
theorem ending_of_command_no_outline :
    let argv := ["P.xcodeproj", "", "t", "outline.txt", "--quiet"]
    let a : Arguments :=
      { project := some "P.xcodeproj", target := some "", templates := some "t", outline := some "outline.txt",
        options := { quiet := true } }
    Request.ofWords argv = .run a ∧
      Ending (Job.exec (command argv (.whole 0)) {}).1 (Job.exec (command argv (.whole 0)) {}).2.printed := by
  intro argv a
  have hrun : Request.ofWords argv = .run a := by decide +kernel +revert
  exact ⟨hrun, ending_of_command {} hrun rfl {}⟩

/-- **Not every fault is reported**: an outline that is no text leaves the command with a fault of its own. -/
theorem command_leaves_undecodable :
    let argv := ["P.xcodeproj", "", "t", "outline.txt", "--quiet"]
    let a : Arguments :=
      { project := some "P.xcodeproj", target := some "", templates := some "t", outline := some "outline.txt",
        options := { quiet := true } }
    let st : RunState := { disk := { entries := [(["outline.txt"], .file [0xFF]), (["t"], .folder)] } }
    Request.ofWords argv = .run a ∧
      (Job.exec (command argv (.whole 0)) st).1 = .error (.undecodable ⟨.badStart, 0, [0xFF]⟩) := by
  intro argv a st
  constructor
  · decide +kernel +revert
  · decide +kernel +revert

end Stencil.CommandLine
