import Stencil.Proofs.Run.Acts
import Stencil.Proofs.Run.Last

/-!
# `Stencil.Proofs.Run.Beside` — what is done side by side

## Contents
- **Touching.** `Part.touches` says that a part may have changed the disk.
- **Growth.** `Generator.Grown` collects what holds of work and a disk after steps from work of which nothing had begun,
  in whatever order: what has been made is there, and what has not been touched is as it was (`Steps.grown`).
- **Templates.** If no template lies where a file is written, it is the same at all times, and what a part finds out
  about its template and its checks remains true (`Generator.Knows`).
- **Contents.** `Generator.Settles` says what a place holds to which several files may be written: nothing is decided
  until all the last ones have been opened, and then they have to agree (`Steps.settles`).
-/

namespace Stencil

open Text

/-! ## Touching -/

/-- Whether a part may have changed the disk: it has been made, it is an open file, or it is a file with a name or a
    content that cannot be written. -/
def Part.touches : Part → Bool
  | ⟨_, .made _⟩ => true
  | ⟨_, .opened _ _⟩ => true
  | ⟨.file _ _, .stopped (.unwritable _)⟩ => true
  | _ => false

namespace Generator

variable {g : Generator} {fs fs' : FileSystem} {t : Task} {stage stage' : Stage t} {l : Location}

/-- What comes to touch nothing changes nothing. -/
theorem Acts.eq_of_not_touches (h : g.Acts fs stage stage' fs') (htouches : Part.touches ⟨t, stage'⟩ ≠ true) :
    fs' = fs := by
  cases h with
  | announced hid | bare hid | read hread | stopped hclosed h | unwritten => rfl
  | folder hpasses hmade | opened hpasses hreach hfile | written hpasses => exact absurd rfl htouches

/-- What touches the disk does so from then on. -/
theorem Acts.touches (h : g.Acts fs stage stage' fs') (hahead : stage.ahead ≠ 0)
    (htouches : Part.touches ⟨t, stage⟩ = true) : Part.touches ⟨t, stage'⟩ = true := by
  cases h with
  | @announced t hid => cases t <;> cases htouches
  | bare hid | read hread | folder hpasses hmade | opened hpasses hreach hfile => cases htouches
  | written hpasses | unwritten => rfl
  | @stopped t stage fault hclosed h =>
    -- what has not been opened and is still ahead does not touch the disk
    cases t <;> cases stage <;> first | exact absurd rfl hahead | (cases hclosed; done) | cases htouches

/-- An act puts something somewhere, or nothing. -/
theorem Acts.exists_putAll (h : g.Acts fs stage stage' fs') (hfits : g.settings.Fits fs ⟨t, stage⟩) :
    ∃ es, fs' = fs.putAll es := by
  cases h with
  | announced hid | bare hid | read hread | stopped hclosed h | unwritten => exact ⟨[], rfl⟩
  | folder hpasses hmade => exact ⟨_, hmade.eq_putAll⟩
  | opened hpasses hreach hfile => exact ⟨_, (FileSystem.putAll_singleton (FileSystem.ne_nil_of_entryAt? hfile) _).symm⟩
  | @written folder f body place hpasses =>
    obtain ⟨-, bytes, hfile⟩ := hfits.exists_file
    have hnot : fs.entryAt? place ≠ some .folder := by simp [hfile]
    rw [FileSystem.overwrite_of_entryAt? hfile]
    exact ⟨_, (FileSystem.putAll_singleton (FileSystem.ne_nil_of_entryAt? hnot) _).symm⟩

/-- What a task is refused is told with what was refused and where. -/
theorem Acts.refusal {fault : Fault} (h : g.Acts fs stage (.stopped fault) fs') (hrefusal : fault.isRefusal = true) :
    ∃ action path cause, fault = .generation action path cause ∧ g.settings.Refuses fs t action path (.cause cause) := by
  cases h with
  | stopped hclosed h => exact h.refusal hrefusal
  | unwritten => cases hrefusal

end Generator

/-! ## Growth -/

namespace Generator

variable {g : Generator} {w w' : Work} {s s' : RunState}

/-- One step is an act on the disk. -/
theorem Step.acts (hdry : g.settings.dryRun = false) (h : g.Step w s w' s')
    (hfits : ∀ p ∈ w.parts, g.settings.Fits s.disk p) :
    ∃ t, ∃ stage stage' : Stage t, stage.ahead ≠ 0 ∧ Work.Turn stage stage' w w' ∧
      g.settings.Fits s.disk ⟨t, stage⟩ ∧ g.Acts s.disk stage stage' s'.disk := by
  cases h with
  | mk hahead hturn hact =>
    have hpart := hfits _ hturn.mem
    exact ⟨_, _, _, hahead, hturn, hpart, acts_of_exec hdry hahead hpart hact⟩

/-- What holds of work and a disk after steps on a disk `fs` from work of which nothing had begun. -/
structure Grown (g : Generator) (fs : FileSystem) (w : Work) (fs' : FileSystem) : Prop where
  grows : FileSystem.Grows fs fs'
  /-- What has been made is there, and so is what is open. -/
  fits : ∀ p ∈ w.parts, g.settings.Fits fs' p
  /-- Where no part touches the disk, it is as it was. -/
  frame : ∀ l, (∀ p ∈ w.parts, p.touches = true → fs.placeOf (g.settings.pathOf p.task) ≠ l) →
    fs'.entryAt? l = fs.entryAt? l
  /-- Where no task writes a file, none appears, vanishes or changes. -/
  file_iff : ∀ l, (∀ t ∈ w.tasks, ∀ e, g.settings.fileOf? t = some e → fs.placeOf e.1 ≠ l) →
    ∀ bytes, fs'.entryAt? l = some (.file bytes) ↔ fs.entryAt? l = some (.file bytes)
  /-- A refusal of the system is that of the task which has stopped, on the disk as it was then. -/
  refusal : ∀ t fault, ⟨t, .stopped fault⟩ ∈ w.parts → fault.isRefusal = true →
    ∃ action path cause mid, fault = .generation action path cause ∧
      g.settings.Refuses mid t action path (.cause cause) ∧ FileSystem.Grows fs mid ∧ FileSystem.Grows mid fs'
  putAll : ∃ es, fs' = fs.putAll es

theorem grown_of_isNew (g : Generator) (fs : FileSystem) (h : w.isNew = true) : g.Grown fs w fs := by
  have hnew : ∀ p ∈ w.parts, p.stage.isNew = true := List.all_eq_true.mp h
  refine ⟨.refl fs, fun p hp => ?_, fun _ _ => rfl, fun _ _ _ => .rfl, fun t fault hp => ?_, [], rfl⟩
  · obtain ⟨t, stage⟩ := p
    cases stage with
    | new => cases t <;> trivial
    | announced | read body | opened body l | made r | stopped fault => cases hnew _ hp
  · cases hnew _ hp

/-- **A step keeps all of it.** -/
theorem Grown.step {fs : FileSystem} (hdry : g.settings.dryRun = false) (hgrown : g.Grown fs w s.disk)
    (h : g.Step w s w' s') : g.Grown fs w' s'.disk := by
  obtain ⟨t, stage, stage', hahead, hturn, hfits, hacts⟩ := h.acts hdry hgrown.fits
  have hgrows := hacts.grows hfits
  constructor
  case grows => exact hgrown.grows.trans hgrows
  case fits =>
    intro p hp
    rcases hturn.of_mem hp with rfl | hold
    · exact hacts.fits hfits
    · exact (hgrown.fits p hold).grows hgrows
  case frame =>
    intro l hl
    -- what touched the disk before the step still does, as the part that takes it does after it
    have hold : s.disk.entryAt? l = fs.entryAt? l := by
      refine hgrown.frame l fun p hp htouches => ?_
      rcases hturn.mem_or hp with rfl | hnew
      · exact hl ⟨t, stage'⟩ hturn.mem' (hacts.touches hahead htouches)
      · exact hl p hnew htouches
    rw [← hold]
    by_cases htouches : Part.touches ⟨t, stage'⟩ = true
    · refine hacts.frame hfits ?_
      rw [hgrown.grows.placeOf]
      exact hl ⟨t, stage'⟩ hturn.mem' htouches
    · rw [hacts.eq_of_not_touches htouches]
  case file_iff =>
    intro l hl bytes
    rw [hturn.tasks] at hl
    rw [← hgrown.file_iff l hl]
    refine hacts.file_iff hfits (fun e he => ?_) bytes
    rw [hgrown.grows.placeOf]
    exact hl t hturn.mem_tasks e he
  case refusal =>
    intro u fault hp hrefusal
    rcases hturn.of_mem hp with hacting | hold
    · cases hacting
      obtain ⟨action, path, cause, hfault, hrefuses⟩ := hacts.refusal hrefusal
      exact ⟨action, path, cause, s.disk, hfault, hrefuses, hgrown.grows, hgrows⟩
    · obtain ⟨action, path, cause, mid, hfault, hrefuses, hbefore, hafter⟩ := hgrown.refusal u fault hold hrefusal
      exact ⟨action, path, cause, mid, hfault, hrefuses, hbefore, hafter.trans hgrows⟩
  case putAll =>
    obtain ⟨es, hes⟩ := hgrown.putAll
    obtain ⟨more, hmore⟩ := hacts.exists_putAll hfits
    exact ⟨es ++ more, by rw [FileSystem.putAll_append, ← hes, hmore]⟩

/-- **Many steps**, in whatever order. -/
theorem Steps.grown (hdry : g.settings.dryRun = false) (hnew : w.isNew = true) (h : g.Steps w s w' s') :
    g.Grown s.disk w' s'.disk :=
  h.keeps (p := fun w₁ s₁ => g.Grown s.disk w₁ s₁.disk) (g.grown_of_isNew s.disk hnew)
    fun _ _ _ _ hgrown hstep => hgrown.step hdry hstep

end Generator

/-! ## Templates -/

namespace Settings

variable {s : Settings} {fs fs' : FileSystem} {f : File} {body : String}

/-- A template that is the same on a disk that has grown is read there too. -/
theorem Reads.grows (h : s.Reads fs f body) (hgrows : FileSystem.Grows fs fs') (hbody : s.body? fs' f = s.body? fs f) :
    s.Reads fs' f body := by
  refine ⟨fun hid => ?_, hbody.trans h.body⟩
  rw [hgrows.placeOf]
  exact hgrows.locate (h.reach hid)

theorem Reads.content? (h : s.Reads fs f body) : s.content? fs f = some (Placeholder.fill (s.scopeOf f) body) := by
  rw [Settings.content?, h.body]
  rfl

end Settings

namespace Generator

variable {g : Generator} {fs fs' : FileSystem} {t : Task} {stage stage' : Stage t} {w w' : Work} {s s' : RunState}

/-- Whether the checks of a task pass, with the template that is on the disk. -/
def Allows (g : Generator) (fs : FileSystem) : Task → Prop
  | .folder parent name => (g.requireFolder parent name).Passes
  | .file folder f =>
    (g.requireName folder f).Passes ∧ ∃ body, g.settings.Reads fs f body ∧ (g.requireText f body).Passes

/-- What a part has found out by its stage. -/
def Knows (g : Generator) (fs : FileSystem) : Part → Prop
  | ⟨.file _ f, .read body⟩ => g.settings.Reads fs f body
  | ⟨.file folder f, .opened body _⟩ => g.settings.Reads fs f body ∧ (g.requireName folder f).Passes
  | ⟨t, .made r⟩ => g.Allows fs t ∧ r = g.resultOf fs t
  | _ => True

theorem knows_made {r : Report} : g.Knows fs ⟨t, .made r⟩ ↔ g.Allows fs t ∧ r = g.resultOf fs t := by
  cases t <;> rfl

theorem knows_stopped {fault : Fault} : g.Knows fs ⟨t, .stopped fault⟩ := by
  cases t <;> trivial

/-- What reads the same template comes to the same. -/
theorem resultOf_congr {ts : List Task} (h : g.settings.SameTemplates fs fs' ts) (ht : t ∈ ts) :
    g.resultOf fs' t = g.resultOf fs t := by
  cases t with
  | folder parent name => rfl
  | file folder f => rw [resultOf, resultOf, h.content? ht]

theorem Allows.grows (h : g.Allows fs t) (hgrows : FileSystem.Grows fs fs')
    (hsame : g.settings.SameTemplates fs fs' [t]) : g.Allows fs' t := by
  cases t with
  | folder parent name => exact h
  | file folder f =>
    obtain ⟨hname, body, hreads, htext⟩ := h
    have hbody := hsame (folder / g.settings.fileName f, f) (by simp [Settings.fileOf?])
    exact ⟨hname, body, hreads.grows hgrows hbody, htext⟩

/-- What a part has found out remains true while its template is the same. -/
theorem Knows.grows {p : Part} (h : g.Knows fs p) (hgrows : FileSystem.Grows fs fs')
    (hsame : g.settings.SameTemplates fs fs' [p.task]) : g.Knows fs' p := by
  obtain ⟨t, stage⟩ := p
  cases stage with
  | new | announced => cases t <;> trivial
  | stopped fault => exact knows_stopped
  | made r =>
    obtain ⟨hallows, rfl⟩ := knows_made.mp h
    exact knows_made.mpr ⟨hallows.grows hgrows hsame, (resultOf_congr hsame List.mem_cons_self).symm⟩
  | @read folder f body =>
    have hbody := hsame (folder / g.settings.fileName f, f) (by simp [Settings.fileOf?])
    exact Settings.Reads.grows h hgrows hbody
  | @opened folder f body l =>
    have hbody := hsame (folder / g.settings.fileName f, f) (by simp [Settings.fileOf?])
    exact ⟨Settings.Reads.grows h.1 hgrows hbody, h.2⟩

/-- An act finds out what is true. -/
theorem Acts.knows (hdry : g.settings.dryRun = false) (h : g.Acts fs stage stage' fs') (hknows : g.Knows fs ⟨t, stage⟩) :
    g.Knows fs ⟨t, stage'⟩ := by
  cases h with
  | @announced t hid => cases t <;> trivial
  | @bare folder f hid =>
    refine ⟨fun hid' => absurd hid hid', ?_⟩
    rw [Settings.body?, if_pos hid]
  | read hread => exact hread
  | folder hpasses hmade => exact knows_made.mpr ⟨hpasses, rfl⟩
  | opened hpasses hreach hfile => exact ⟨hknows, hpasses⟩
  | @written folder f body place hpasses =>
    obtain ⟨hreads, hname⟩ : g.settings.Reads fs f body ∧ (g.requireName folder f).Passes := hknows
    refine knows_made.mpr ⟨⟨hname, body, hreads, hpasses⟩, ?_⟩
    rw [resultOf, hdry, hreads.content?]
    rfl
  | stopped hclosed h | unwritten => exact knows_stopped

/-- Templates that lie where nothing is written are the same at all times. -/
theorem Grown.sameTemplates (h : g.Grown fs w fs') (hkeeps : g.settings.KeepsTemplates fs w.tasks) :
    g.settings.SameTemplates fs fs' w.tasks := by
  intro e he
  refine Settings.body?_congr h.grows fun hid => h.file_iff _ fun t ht e' he' => ?_
  exact (hkeeps e he hid e' (List.mem_filterMap.mpr ⟨t, ht, he'⟩)).symm

theorem Steps.sameTemplates (hdry : g.settings.dryRun = false) (hnew : w.isNew = true)
    (hkeeps : g.settings.KeepsTemplates s.disk w.tasks) (h : g.Steps w s w' s') :
    g.settings.SameTemplates s.disk s'.disk w.tasks := by
  have hsame := (h.grown hdry hnew).sameTemplates (h.tasks ▸ hkeeps)
  rwa [h.tasks] at hsame

/-- **What parts have found out is true**, after any number of steps. -/
theorem Steps.knows (hdry : g.settings.dryRun = false) (hnew : w.isNew = true)
    (hkeeps : g.settings.KeepsTemplates s.disk w.tasks) (h : g.Steps w s w' s') :
    ∀ p ∈ w'.parts, g.Knows s'.disk p := by
  have hstart : ∀ p ∈ w.parts, g.Knows s.disk p := fun p hp => by
    have hpnew := List.all_eq_true.mp hnew p hp
    obtain ⟨t, stage⟩ := p
    cases stage with
    | new => cases t <;> trivial
    | announced | read body | opened body l | made r | stopped fault => cases hpnew
  refine h.keeps_after (p := fun w₁ s₁ => ∀ p ∈ w₁.parts, g.Knows s₁.disk p) hstart ?_
  intro w₁ s₁ w₂ s₂ hsteps hknows hstep
  obtain ⟨t, stage, stage', hahead, hturn, hfits, hacts⟩ := hstep.acts hdry (hsteps.grown hdry hnew).fits
  have hsame : g.settings.SameTemplates s₁.disk s₂.disk w₁.tasks := by
    have hbefore := hsteps.sameTemplates hdry hnew hkeeps
    have hafter := (hsteps.concat hstep).sameTemplates hdry hnew hkeeps
    rw [hsteps.tasks]
    exact hbefore.symm.trans hafter
  have hgrows := hacts.grows hfits
  -- the part finds out what is true before the act; all parts keep what they know, since no template changes
  intro p hp
  rcases hturn.of_mem hp with rfl | hold
  · exact (hacts.knows hdry (hknows _ hturn.mem)).grows hgrows (hsame.of_mem hturn.mem_tasks)
  · exact (hknows p hold).grows hgrows (hsame.of_mem (List.mem_map_of_mem hold))

end Generator

/-! ## Contents -/

/-- Whether a task writes a file at a place. -/
def Settings.writesAt (s : Settings) (fs : FileSystem) (l : Location) : Task → Bool
  | .folder _ _ => false
  | .file folder f => fs.placeOf (folder / s.fileName f) = l

namespace Generator

variable {g : Generator} {fs fs' : FileSystem} {l : Location} {bytes : Bytes} {w w' : Work} {s s' : RunState}

/-- What is known of a place at which files are written, if the last ones agree on what it is to hold: it holds that, or
    it is not decided yet, because one of the files has stopped, one of the last ones has not been opened, or the place
    is empty and some file is open. -/
inductive Settles (g : Generator) (fs : FileSystem) (l : Location) (bytes : Bytes) (w : Work) (fs' : FileSystem) : Prop
  | stopped {p : Part} (hp : p ∈ w.parts) (hwrites : g.settings.writesAt fs l p.task = true)
      (hstopped : p.stage.fault?.isSome = true)
  | waits {p : Part} (hp : p ∈ w.last (g.settings.writesAt fs l)) (hahead : 2 ≤ p.stage.ahead)
  | empty {p : Part} (hempty : fs'.entryAt? l = some (.file [])) (hp : p ∈ w.parts)
      (hwrites : g.settings.writesAt fs l p.task = true) (hopen : p.stage.isOpen = true)
  | settled (hfile : fs'.entryAt? l = some (.file bytes))

variable {t : Task} {stage stage' : Stage t} {fs₁ fs₂ : FileSystem}

/-- A part that writes elsewhere decides nothing. -/
theorem Settles.step_elsewhere (h : g.Settles fs l bytes w fs₁) (hturn : Work.Turn stage stage' w w')
    (hlast : Work.LastTurn (g.settings.writesAt fs l) stage stage' w w') (hq : g.settings.writesAt fs l t = false)
    (hfile : ∀ bytes, fs₂.entryAt? l = some (.file bytes) ↔ fs₁.entryAt? l = some (.file bytes)) :
    g.Settles fs l bytes w' fs₂ := by
  have hstays : ∀ p ∈ w.parts, g.settings.writesAt fs l p.task = true → p ∈ w'.parts := by
    intro p hp hwrites
    refine (hturn.mem_or hp).resolve_left ?_
    rintro rfl
    rw [hq] at hwrites
    cases hwrites
  cases h with
  | stopped hp hwrites hstopped => exact .stopped (hstays _ hp hwrites) hwrites hstopped
  | waits hp hahead =>
    rcases hlast.mem_or hp with ⟨rfl, hp'⟩ | hp'
    · rw [show g.settings.writesAt fs l t = true from (Work.mem_last hp).2] at hq
      cases hq
    · exact .waits hp' hahead
  | empty hempty hp hwrites hopen => exact .empty ((hfile []).mpr hempty) (hstays _ hp hwrites) hwrites hopen
  | settled hsettled => exact .settled ((hfile bytes).mpr hsettled)

/-- A part that has not come to open its file decides nothing. -/
theorem Settles.step_ahead (h : g.Settles fs l bytes w fs₁) (hturn : Work.Turn stage stage' w w')
    (hlast : Work.LastTurn (g.settings.writesAt fs l) stage stage' w w') (hahead : 2 ≤ stage.ahead)
    (hahead' : 2 ≤ stage'.ahead) : g.Settles fs l bytes w' fs₁ := by
  have hstays : ∀ p ∈ w.parts, p.stage.ahead ≤ 1 → p ∈ w'.parts := by
    intro p hp hle
    refine (hturn.mem_or hp).resolve_left ?_
    rintro rfl
    exact absurd (Nat.le_trans hahead hle) (by decide)
  cases h with
  | @stopped p hp hwrites hstopped =>
    have hzero := Stage.ahead_eq_zero_iff.mpr (.inr hstopped)
    exact .stopped (hstays p hp (by omega)) hwrites hstopped
  | waits hp hle =>
    rcases hlast.mem_or hp with ⟨rfl, hp'⟩ | hp'
    · exact .waits hp' hahead'
    · exact .waits hp' hle
  | empty hempty hp hwrites hopen =>
    exact .empty hempty (hstays _ hp (Nat.le_of_eq (Stage.ahead_of_isOpen hopen))) hwrites hopen
  | settled hsettled => exact .settled hsettled

/-- A file that is written has the bytes on which the last ones agree, if it is one of the last. -/
theorem Settles.step_written {new : Bytes} (h : g.Settles fs l bytes w fs₁) (hturn : Work.Turn stage stage' w w')
    (hlast : Work.LastTurn (g.settings.writesAt fs l) stage stage' w w') (hopen : stage.isOpen = true)
    (hq : g.settings.writesAt fs l t = true)
    (hagree : t ∈ (w.last (g.settings.writesAt fs l)).map Part.task → new = bytes) :
    g.Settles fs l bytes w' (fs₁.overwrite l new) := by
  have hone := Stage.ahead_of_isOpen hopen
  cases hlast with
  | kept hkept hwaits =>
    -- another one has still to be opened
    obtain ⟨p, hp, hnew⟩ := hwaits hq
    exact .waits (hkept ▸ hp) (by rw [Stage.ahead_of_isNew hnew]; decide)
  | exchanged hold hnew =>
    -- it is one of the last, so it brings the bytes on which they agree, over an empty file or over these bytes
    obtain rfl : new = bytes := hagree (by simp [hold])
    have hput {old : Bytes} (hfile : fs₁.entryAt? l = some (.file old)) (hdrop : old.drop new.length = []) :
        (fs₁.overwrite l new).entryAt? l = some (.file new) := by
      have hnot : fs₁.entryAt? l ≠ some .folder := by simp [hfile]
      rw [FileSystem.overwrite_of_entryAt? hfile, hdrop, List.append_nil]
      exact FileSystem.entryAt?_put_self fs₁ (FileSystem.ne_nil_of_entryAt? hnot) _
    cases h with
    | @stopped p hp hwrites hstopped =>
      refine .stopped ((hturn.mem_or hp).resolve_left ?_) hwrites hstopped
      rintro rfl
      rw [Stage.ahead_eq_zero_iff.mpr (.inr hstopped)] at hone
      cases hone
    | @waits p hp hle =>
      rcases (Work.LastTurn.exchanged hold hnew).mem_or hp with ⟨rfl, -⟩ | hp'
      · rw [hone] at hle
        exact absurd hle (by decide)
      · exact .waits hp' hle
    | empty hempty hp hwrites hopen => exact .settled (hput hempty List.drop_nil)
    | settled hsettled => exact .settled (hput hsettled (List.drop_eq_nil_of_le (Nat.le_refl _)))

/-- Whether the last files at a place agree on what it is to hold. -/
def LastAgree (g : Generator) (fs : FileSystem) (l : Location) (bytes : Bytes) (w : Work) : Prop :=
  ∀ f ∈ w.lastFiles (g.settings.writesAt fs l), ∀ content, g.settings.content? fs f = some content →
    Utf8.encode content.toList = bytes

/-- **A step keeps what is known of a place.** -/
theorem Settles.step (h : g.Settles fs l bytes w fs₁) (hagree : g.LastAgree fs l bytes w)
    (hgrows : FileSystem.Grows fs fs₁) (horderly : w.Orderly) (hahead : stage.ahead ≠ 0)
    (hturn : Work.Turn stage stage' w w') (hfits : g.settings.Fits fs₁ ⟨t, stage⟩) (hacts : g.Acts fs₁ stage stage' fs₂) (hknows : g.Knows fs₁ ⟨t, stage⟩)
    (hsame : g.settings.SameTemplates fs fs₁ [t]) : g.Settles fs l bytes w' fs₂ := by
  have hlast := hturn.last horderly hahead (g.settings.writesAt fs l)
  cases hq : g.settings.writesAt fs l t with
  | false =>
    refine h.step_elsewhere hturn hlast hq fun bytes => hacts.file_iff hfits (fun e he => ?_) bytes
    cases t with
    | folder parent name => cases he
    | file folder f =>
      obtain rfl := Option.some.inj he
      rw [hgrows.placeOf]
      simpa [Settings.writesAt] using hq
  | true =>
    cases hacts with
    | announced hid | bare hid | read hread =>
      exact h.step_ahead hturn hlast (by simp [Stage.ahead]) (by simp [Stage.ahead])
    | folder hpasses hmade => cases hq
    | @opened folder f body hpasses hreach hfile =>
      -- whatever was there before, the place is empty now, and this file is open
      have hplace : fs.placeOf (folder / g.settings.fileName f) = l := by simpa [Settings.writesAt] using hq
      rw [hgrows.placeOf, hplace] at hfile ⊢
      refine .empty ?_ hturn.mem' hq rfl
      exact FileSystem.entryAt?_put_self fs₁ (FileSystem.ne_nil_of_entryAt? hfile) _
    | @written folder f body place hpasses =>
      have hplace : fs.placeOf (folder / g.settings.fileName f) = l := by simpa [Settings.writesAt] using hq
      obtain ⟨hl, -⟩ := Settings.fits_opened.mp hfits
      rw [hgrows.placeOf, hplace] at hl
      subst hl
      refine h.step_written hturn hlast rfl hq fun hmem => ?_
      have hlastFile := Work.mem_lastFiles_iff.mpr ⟨folder, hmem⟩
      exact hagree f hlastFile _ ((hsame.content? List.mem_cons_self).symm.trans (Settings.Reads.content? hknows.1))
    | stopped hclosed hstops => exact .stopped hturn.mem' hq rfl
    | unwritten => exact .stopped hturn.mem' hq rfl

/-- **Many steps** keep it too, if files are written there at all. -/
theorem Steps.settles (hdry : g.settings.dryRun = false) (hnew : w.isNew = true)
    (hkeeps : g.settings.KeepsTemplates s.disk w.tasks) (hwrites : ∃ t ∈ w.tasks, g.settings.writesAt s.disk l t = true)
    (hagree : g.LastAgree s.disk l bytes w) (h : g.Steps w s w' s') : g.Settles s.disk l bytes w' s'.disk := by
  have horderly := Work.orderly_of_isNew hnew
  have hstart : g.Settles s.disk l bytes w s.disk := by
    obtain ⟨t, ht, hq⟩ := hwrites
    obtain ⟨p, hp, rfl⟩ := List.mem_map.mp ht
    obtain ⟨p', hp'⟩ := List.exists_mem_of_ne_nil _ (Work.last_ne_nil hp hq)
    refine .waits hp' ?_
    rw [Stage.ahead_of_isNew (List.all_eq_true.mp hnew p' (Work.mem_last hp').1)]
    decide
  -- nothing has begun, so one of the last files waits to be opened; from there on, every step keeps what is known
  refine h.keeps_after (p := fun w₁ s₁ => g.Settles s.disk l bytes w₁ s₁.disk) hstart ?_
  intro w₁ s₁ w₂ s₂ hsteps hsettles hstep
  have hgrown := hsteps.grown hdry hnew
  obtain ⟨t, stage, stage', hahead, hturn, hfits, hacts⟩ := hstep.acts hdry hgrown.fits
  have hagree' : g.LastAgree s.disk l bytes w₁ := by
    rw [LastAgree, hsteps.lastFiles horderly]
    exact hagree
  have ht : t ∈ w.tasks := hsteps.tasks ▸ hturn.mem_tasks
  exact hsettles.step hagree' hgrown.grows (hsteps.orderly horderly) hahead hturn hfits hacts
    (hsteps.knows hdry hnew hkeeps _ hturn.mem) ((hsteps.sameTemplates hdry hnew hkeeps).of_mem ht)

end Generator

end Stencil
