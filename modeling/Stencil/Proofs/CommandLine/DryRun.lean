import Stencil.CommandLine.Command
import Stencil.Proofs.Run.DryRun

/-!
# `Stencil.Proofs.CommandLine.DryRun` — the command, for show

## Contents
- **Questions.** Up to the run, the command only asks: what is given, what is on the disk and what the parameters are.
- **Settings.** A run is for show if the option says so (`generatorWith_yields`).
- **Dry runs.** With that option the command keeps the disk (`keeps_command`). In all, a dry run foretells a real one
  and touches nothing (`dry_foretells`).
-/

namespace Stencil.CommandLine

open Console Text

/-! ## Questions -/

theorem asks_given (place : Option String) : (given place).Asks := by
  cases place with
  | none => exact Job.asks_throw _
  | some s => exact Job.asks_pure s

theorem asks_givenTarget (target : Option String) : (givenTarget target).Asks := by
  cases target with
  | none => exact Job.asks_throw _
  | some s => exact Job.asks_pure s

theorem asks_givenNumber (n : Option Int) : (givenNumber n).Asks := by
  cases n with
  | none => exact Job.asks_throw _
  | some n => exact Job.asks_pure n

theorem asks_loadParametersWith (reader : Yaml.Reader) (path : Path) : (Job.loadParametersWith reader path).Asks := by
  refine (Job.asks_readText _ _).bind fun text => ?_
  split
  · exact Job.asks_pure _
  · exact Job.asks_throw _

theorem asks_parametersWith (reader : Yaml.Reader) (o : Options) : (parametersWith reader o).Asks := by
  have hfile : ∀ file, (Parameters.ofFile <$> Job.loadParametersWith reader (Path.ofString file)).Asks := fun file => by
    rw [map_eq_pure_bind]
    exact (asks_loadParametersWith reader _).bind fun ps => Job.asks_pure _
  unfold parametersWith
  dsimp only
  split
  case' h_1 file _ => refine (hfile file).bind fun ofFile => ?_
  case' h_2 => refine (Job.asks_pure _).bind fun ofFile => ?_
  -- With a file or without one, the parameters that are written out are read last.
  all_goals
    split
    · exact Job.asks_pure _
    · split
      · exact Job.asks_pure _
      · exact Job.asks_throw _

/-- To make the settings, the command only asks. -/
theorem asks_generatorWith (reader : Yaml.Reader) (a : Arguments) (outline templates : Path)
    (writes : { n : Nat // 1 ≤ n }) : (generatorWith reader a outline templates writes).Asks :=
  (asks_parametersWith reader _).bind fun _ => (asks_given _).bind fun _ => (asks_givenTarget _).bind fun _ =>
    Job.asks_pure _

/-! ## Settings -/

theorem generatorWith_yields (reader : Yaml.Reader) (a : Arguments) (outline templates : Path)
    (writes : { n : Nat // 1 ≤ n }) :
    (generatorWith reader a outline templates writes).Yields fun g => g.settings.dryRun = a.options.dryRun :=
  (Job.yields_true _).bind fun _ _ => (Job.yields_true _).bind fun _ _ => (Job.yields_true _).bind fun _ _ =>
    Job.yields_pure rfl

/-! ## Dry runs -/

theorem keeps_fail (message : String) : (fail message).Keeps := fun _ => rfl

/-- A run for show, with its summary. -/
theorem keeps_runWith {g : Generator} (hdry : g.settings.dryRun = true) (elapsed : Duration) :
    (runWith {} g elapsed).Keeps := by
  have hrun : (g.runOn {}).Keeps := by
    rw [← Generator.dry_eq_self hdry]
    exact g.keeps_run
  refine hrun.attempt.bind fun result => ?_
  cases result with
  | error f =>
    dsimp only
    split
    · exact fun _ => rfl
    · exact fun _ => rfl
  | ok summary =>
    simp only [Host.displayAll_default]
    split
    · exact fun _ => rfl
    · exact fun _ => rfl

theorem keeps_runArguments {a : Arguments} (hdry : a.options.dryRun = true) (elapsed : Duration) :
    (runArguments {} a elapsed).Keeps := by
  refine (asks_given _).keeps.bind fun outline => (Job.asks_ask _ _).keeps.bind fun found => ?_
  split
  · exact keeps_fail _
  refine (asks_given _).keeps.bind fun templates => (Job.asks_ask _ _).keeps.bind fun found => ?_
  split
  · exact keeps_fail _
  refine (asks_givenNumber _).keeps.bind fun writes => ?_
  split
  · next hwrites =>
    have hasks := asks_generatorWith .none a (Path.ofString outline) (Path.ofString templates) ⟨writes.toNat, by omega⟩
    have hyields := generatorWith_yields .none a (Path.ofString outline) (Path.ofString templates)
      ⟨writes.toNat, by omega⟩
    refine hasks.keeps.attempt.bind_of_yields hyields.attempt fun result hresult => ?_
    cases result with
    | ok g => exact keeps_runWith ((hresult g rfl).trans hdry) elapsed
    | error f =>
      dsimp only
      split
      · exact keeps_fail _
      · exact fun _ => rfl
  · exact keeps_fail _

/-- **For show, the command keeps the disk**, however it ends. -/
theorem keeps_command {argv : List String} {a : Arguments} (h : Request.ofWords argv = .run a)
    (hdry : a.options.dryRun = true) (elapsed : Duration) : (command argv elapsed).Keeps := by
  unfold command commandOn
  rw [h]
  exact keeps_runArguments hdry elapsed

/-- **Dry runs foretell real runs and touch nothing.** To generate an outline for show never fails, keeps the disk, and
    gives one report on all disks, which foretells that of every real run with the same settings that succeeds. A whole
    run for show keeps the disk, and where a real one has an end, it has one too, with the same counts and the same
    dropped lines. The command with the option for it keeps the disk. -/
theorem dry_foretells (g : Generator) :
    (∀ o, ∃ d, (∀ s, ∃ s', Job.exec (g.dry.generate o) s = (.ok d, s') ∧ s'.disk = s.disk) ∧
      ∀ s r s', Job.exec (g.generate o) s = (.ok r, s') → d.Foretells r) ∧
    g.dry.run.Keeps ∧
    (∀ s real s', Job.exec g.run s = (.ok real, s') →
      ∃ dry s'', Job.exec g.dry.run s = (.ok dry, s'') ∧ dry.folders = real.folders ∧ dry.files = real.files ∧
        dry.dropped = real.dropped) ∧
    ∀ argv a, Request.ofWords argv = .run a → a.options.dryRun = true → ∀ elapsed, (command argv elapsed).Keeps := by
  refine ⟨fun o => ?_, g.keeps_run, fun s real s' h => g.exec_run_dry h, fun argv a h hdry => keeps_command h hdry⟩
  obtain ⟨d, hd⟩ := g.exec_generate_dry o
  refine ⟨d, hd, fun s r s' hreal => ?_⟩
  obtain ⟨s₁, hdry, -⟩ := hd s
  exact Generator.foretells_of_generate hdry hreal

/-- A file with a key in its name and another one in its template, with the whole run and the command. -/
theorem dry_foretells_key_in_name :
    let g : Generator := { settings := { templatesDir := .ofString "t", inputPath := .ofString "o" } }
    let o : Outline := { folders := [.mk "R" [{ templateId := "T", name := "x___K___" }] []] }
    let st : RunState :=
      { disk := { entries := [(["t"], .folder), (["t", "T"], .file (Utf8.encode "___L___".toList)),
          (["o"], .file (Utf8.encode "R:\n\t[T]x___K___".toList))] } }
    (∃ (d r : Report) (st' : RunState), Job.exec (g.generate o) st = (.ok r, st') ∧ d.Foretells r ∧
      r.keysAt (.ofString "R/x___K___") = ["K", "L"]) ∧
    (∃ real st' dry st'', Job.exec g.run st = (.ok real, st') ∧ Job.exec g.dry.run st = (.ok dry, st'') ∧
      dry.files = real.files ∧ real.files = 1) ∧
    (command ["p", "", "t", "o", "--dry-run"] (.whole 0)).Keeps := by
  intro g o st
  obtain ⟨hgenerate, -, hrun, hcommand⟩ := dry_foretells g
  have hreport : (Job.exec (g.generate o) st).1.map (·.keysAt (.ofString "R/x___K___")) = .ok ["K", "L"] := by
    clear hgenerate hrun hcommand
    decide +kernel +revert
  have hcount : (Job.exec g.run st).1.map Summary.files = .ok 1 := by
    clear hgenerate hrun hcommand hreport
    decide +kernel +revert
  refine ⟨?_, ?_, ?_⟩
  · obtain ⟨d, -, hforetells⟩ := hgenerate o
    cases hreal : Job.exec (g.generate o) st with
    | mk result st' =>
      rw [hreal] at hreport
      cases result with
      | ok r => exact ⟨d, r, st', rfl, hforetells st r st' hreal, Except.ok.inj hreport⟩
      | error f => cases hreport
  · cases hreal : Job.exec g.run st with
    | mk result st' =>
      rw [hreal] at hcount
      cases result with
      | ok real =>
        obtain ⟨dry, st'', hdry, -, hfiles, -⟩ := hrun st real st' hreal
        exact ⟨real, st', dry, st'', rfl, hdry, hfiles, Except.ok.inj hcount⟩
      | error f => cases hcount
  · exact hcommand _ _ (by decide +kernel : Request.ofWords ["p", "", "t", "o", "--dry-run"] =
      .run { project := some "p", target := some "", templates := some "t", outline := some "o",
             options := { dryRun := true } }) rfl _

end Stencil.CommandLine
