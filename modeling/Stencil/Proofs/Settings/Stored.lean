import Stencil.Proofs.Json.Printed
import Stencil.Proofs.Run.Saving
import Stencil.Run.Storage

/-!
# `Stencil.Proofs.Settings.Stored` — settings that are saved and loaded

## Contents
- **Values.** The value of settings is checked back (`check_toJson`).
- **Texts.** The text of settings is read back, unless the number of writes has more digits than are read
  (`ofText_text`).
- **Storage.** `load_save`.
-/

namespace Stencil

open Json Number Text

/-! ## Values -/

namespace Settings

/-- **The value of settings is checked back.** -/
theorem check_toJson (s : Settings) : check s.toJson = .ok s := by
  have hpath : ∀ p : Path, Path.check (.string p.text) = .ok p := fun p => by rw [Path.check, Path.ofString_text]
  have htext : ∀ t, Check.text (.string t) = .ok t := fun t => rfl
  have hflag : ∀ b, Check.flag (.bool b) = .ok b := fun b => rfl
  have hmanifest : ∀ p? : Option Path,
      Check.nullable Path.check (p?.elim .null fun p => .string p.text) = .ok p? := fun p? => by
    cases p? with
    | none => rfl
    | some p => simp [Check.nullable, hpath, Checked.map]
  have hwrites : Check.atLeast 1 (.int s.maxParallelWrites.val) = .ok s.maxParallelWrites := by
    have h := s.maxParallelWrites.2
    simp [Check.atLeast, Check.integer, h]
  -- every field is found under its name and passes its check
  unfold check toJson Check.record checkMembers
  dsimp only
  rw [Check.optional_eq_ok (by simp [Value.member?]) (hpath s.projectPath),
    Check.optional_eq_ok (by simp [Value.member?]) (htext s.targetPath),
    Check.optional_eq_ok (by simp [Value.member?]) (hpath s.templatesDir),
    Check.optional_eq_ok (by simp [Value.member?]) (hpath s.inputPath),
    Check.optional_eq_ok (by simp [Value.member?]) (Scope.check_toJson s.parameters),
    Check.optional_eq_ok (by cases s.manifestPath <;> simp [Value.member?]) (hmanifest s.manifestPath),
    Check.optional_eq_ok (by simp [Value.member?]) (hflag s.allowExisting),
    Check.optional_eq_ok (by simp [Value.member?]) (hflag s.dryRun),
    Check.optional_eq_ok (by simp [Value.member?]) hwrites]
  rfl

/-! ## Texts -/

/-- What holds of every value in settings but the number of writes holds of settings if it holds of that. -/
theorem all_toJson {p : Value → Bool} (hnull : p .null = true) (hbool : ∀ b, p (.bool b) = true)
    (hstring : ∀ t, p (.string t) = true) (s : Settings) :
    s.toJson.all p = p (.int s.maxParallelWrites.val) := by
  have hparameters := Value.all_toJson_scope hstring s.parameters
  unfold toJson
  cases s.manifestPath with
  | none => simp [Value.all, Value.allMembers, hparameters, hnull, hbool, hstring]
  | some path => simp [Value.all, Value.allMembers, hparameters, hbool, hstring]

theorem isExact_toJson (s : Settings) : s.toJson.all Value.isExact = true :=
  all_toJson rfl (fun _ => rfl) (fun _ => rfl) s

theorem isShort_toJson (s : Settings) : s.toJson.all Value.isShort = isWritable s.maxParallelWrites.val :=
  all_toJson rfl (fun _ => rfl) (fun _ => rfl) s

/-- Settings hold nothing deeper than their parameters. -/
theorem nesting_toJson (s : Settings) : s.toJson.nesting ≤ maxNesting := by
  have hparameters : s.parameters.toJson.nesting ≤ 1 := Value.nesting_toJson_scope s.parameters
  have htwo : s.toJson.nesting ≤ 2 := by
    rw [toJson, Value.nesting, Value.nestingMembers_le_iff]
    cases s.manifestPath <;> simp only [List.forall_mem_cons, List.not_mem_nil, Value.nesting] <;> grind
  exact Nat.le_trans htwo (by decide)

/-- **The text of settings is read back**, unless the number of writes has too many digits. -/
theorem ofText_text (s : Settings) :
    ofText s.text.toList = if s.maxParallelWrites.val < 10 ^ maxDigits then .ok s else .problem .notJson := by
  have hparse := parse_text .indented s.isExact_toJson
  have hshort : (s.toJson.all Value.isShort = true ∧ s.toJson.nesting ≤ maxNesting) ↔
      s.maxParallelWrites.val < 10 ^ maxDigits := by
    rw [isShort_toJson, isWritable_iff, Int.natAbs_natCast, and_iff_left s.nesting_toJson]
  rw [ofText, text]
  split
  · next v hv =>
    rw [hv] at hparse
    split at hparse
    · next h =>
      cases hparse
      rw [if_pos (hshort.mp h), check_toJson]
    · cases hparse
  · next e he =>
    rw [he] at hparse
    split at hparse
    · cases hparse
    · next h => rw [if_neg (mt hshort.mpr h)]

end Settings

/-! ## Storage -/

namespace Job

/-- Settings are saved where a text can be, and loading gives what their text says. -/
theorem exec_loadSettings {path : Path} {st : RunState} (h : CanSave path st) (s : Settings) :
    ∃ st', exec (saveSettings s path) st = (.ok path, st') ∧
      exec (loadSettings path) st' =
        (if s.maxParallelWrites.val < 10 ^ maxDigits then .ok s else .error (.invalid [⟨[], .notJson⟩]), st') := by
  obtain ⟨st', hsave, hread⟩ := h.exec_saveText s.text
  have hcr : normalizeNewlines s.text.toList = s.text.toList := by
    rw [Settings.text, Value.text, String.toList_ofList, normalizeNewlines_render _ _ s.isExact_toJson]
  refine ⟨st', ?_, ?_⟩
  · rw [saveSettings, exec_bind, hsave]
    rfl
  · rw [loadSettings, exec_bind, exec_readText hread hcr]
    dsimp only
    rw [Settings.ofText_text]
    by_cases hwrites : s.maxParallelWrites.val < 10 ^ maxDigits
    · rw [if_pos hwrites, if_pos hwrites]
      rfl
    · rw [if_neg hwrites, if_neg hwrites]
      rfl

/-- **Settings that are saved are loaded as they were**, with a number of writes that has no more digits than are
    read. -/
theorem load_save {path : Path} {st : RunState} (h : CanSave path st) {s : Settings}
    (hwrites : s.maxParallelWrites.val < 10 ^ maxDigits) :
    ∃ st', exec (saveSettings s path) st = (.ok path, st') ∧ exec (loadSettings path) st' = (.ok s, st') := by
  obtain ⟨st', hsave, hload⟩ := exec_loadSettings h s
  rw [if_pos hwrites] at hload
  exact ⟨st', hsave, hload⟩

/-- Settings with a carriage return, a quote and a line separator in their texts, saved to a folder that is not there
    yet. -/
theorem load_save_awkward :
    let s : Settings := { targetPath := "a\r\n\"b\\", parameters := .ofList [("z", "\u2028"), ("a", "")] }
    let path := Path.ofString "new/settings.json"
    CanSave path {} ∧ s.maxParallelWrites.val < 10 ^ maxDigits ∧
      ∃ st', exec (saveSettings s path) {} = (.ok path, st') ∧ exec (loadSettings path) st' = (.ok s, st') := by
  intro s path
  have hsave : CanSave path {} := ⟨"", _, rfl⟩
  have hwrites : s.maxParallelWrites.val < 10 ^ maxDigits :=
    Nat.lt_of_lt_of_le (show 8 < 10 ^ 1 by decide) (Nat.pow_le_pow_right (by decide) (by decide))
  exact ⟨hsave, hwrites, load_save hsave hwrites⟩

/-- A number of writes with one digit too many is not loaded back. -/
theorem not_load_save_many_digits :
    let s : Settings := { maxParallelWrites := ⟨10 ^ maxDigits, Nat.one_le_pow _ _ (by decide)⟩ }
    let path := Path.ofString "settings.json"
    CanSave path {} ∧ ¬ ∃ st', exec (saveSettings s path) {} = (.ok path, st') ∧
      (exec (loadSettings path) st').1 = .ok s := by
  intro s path
  have hsave : CanSave path {} := ⟨"", _, rfl⟩
  refine ⟨hsave, ?_⟩
  rintro ⟨st', hst', hload⟩
  obtain ⟨st₁, hst₁, hrefused⟩ := exec_loadSettings hsave s
  rw [hst₁] at hst'
  obtain ⟨-, rfl⟩ := Prod.mk.inj hst'
  rw [if_neg (Nat.lt_irrefl _)] at hrefused
  rw [hrefused] at hload
  cases hload

end Job

end Stencil
