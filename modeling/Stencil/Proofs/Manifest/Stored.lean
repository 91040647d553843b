import Stencil.Proofs.Json.Dialects
import Stencil.Proofs.Json.Printed
import Stencil.Proofs.Outline.Json
import Stencil.Proofs.Run.Saving
import Stencil.Run.Steps

/-!
# `Stencil.Proofs.Manifest.Stored` — manifests that are written and read

## Contents
- **Values.** The value of a manifest holds nothing but strings, and no name twice in an object.
- **Checking.** The value of a group and of a manifest is checked back; a group is checked to the depth of its
  value, which is more than that of the values of its subgroups.
- **Texts.** What is read of the text of a manifest, in either dialect (`ofText_text`).
- **Files.** `writeManifest_faithful`.
-/

namespace Stencil

open Json Text

/-! ## Values -/

namespace Group

theorem toJsonAll_eq_map (gs : List Group) : toJsonAll gs = gs.map toJson := by
  induction gs with
  | nil => rw [toJsonAll]; rfl
  | cons g gs ih => rw [toJsonAll, ih]; rfl

variable {p : Value → Bool}

mutual

theorem all_toJson (hstring : ∀ t, p (.string t) = true) : (g : Group) → g.toJson.all p = true
  | .mk name path groups files => by
    have hgroups := allItems_toJsonAll hstring groups
    have hfiles : Value.allItems p (files.map .string) = true := Value.allItems_map hstring files
    simp [toJson, stringsToJson, Value.all, Value.allMembers, hstring, hgroups, hfiles]

theorem allItems_toJsonAll (hstring : ∀ t, p (.string t) = true) : (gs : List Group) →
    Value.allItems p (toJsonAll gs) = true
  | [] => by rw [toJsonAll, Value.allItems]
  | g :: gs => by
    rw [toJsonAll, Value.allItems, all_toJson hstring g, allItems_toJsonAll hstring gs]
    rfl

end

mutual

theorem collapsed_toJson : (g : Group) → g.toJson.collapsed = g.toJson
  | .mk name path groups files => by
    have hgroups := collapsedItems_toJsonAll groups
    have hfiles := Value.collapsedItems_strings files
    rw [toJson, stringsToJson, Value.collapsed, Entries.collapse_eq_self]
    · simp [Value.collapsedMembers, Value.collapsed, hgroups, hfiles]
    · simp [Value.collapsedMembers]

theorem collapsedItems_toJsonAll : (gs : List Group) → Value.collapsedItems (toJsonAll gs) = toJsonAll gs
  | [] => by rw [toJsonAll, Value.collapsedItems]
  | g :: gs => by rw [toJsonAll, Value.collapsedItems, collapsed_toJson g, collapsedItems_toJsonAll gs]

end

/-! ## Checking -/

/-- The values of subgroups are less deep. -/
theorem depth_toJson_lt (name path : String) (files : List String) {groups : List Group} {g : Group}
    (h : g ∈ groups) : g.toJson.depth + 1 < (Group.mk name path groups files).toJson.depth := by
  have hmem : g.toJson ∈ toJsonAll groups := by
    rw [toJsonAll_eq_map]
    exact List.mem_map_of_mem h
  have hle := depth_le_depthItems hmem
  simp only [toJson, Value.depth, Value.depthMembers]
  omega

/-- **The value of a group is checked back**, to any depth that it does not exceed. -/
theorem checkTo_toJson (depth : Nat) (g : Group) (h : g.toJson.depth ≤ depth) : checkTo depth g.toJson = .ok g := by
  induction depth generalizing g with
  | zero =>
    cases g
    simp [toJson, Value.depth] at h
  | succ depth ih =>
    cases g with
    | mk name path groups files =>
      have htext : ∀ t, Check.text (.string t) = .ok t := fun t => rfl
      -- the subgroups are checked to one depth less
      have hgroups : Check.listOf (checkTo depth) (.array (toJsonAll groups)) = .ok groups := by
        rw [toJsonAll_eq_map]
        refine Check.listOf_map fun g hg => ih g ?_
        have := depth_toJson_lt name path files hg
        omega
      have hfiles : Check.listOf Check.text (stringsToJson files) = .ok files := Check.listOf_map fun _ _ => rfl
      unfold checkTo toJson Check.record
      dsimp only
      rw [Check.required_eq_ok (by simp [Value.member?]) (htext name),
        Check.required_eq_ok (by simp [Value.member?]) (htext path),
        Check.optional_eq_ok (by simp [Value.member?]) hgroups,
        Check.optional_eq_ok (by simp [Value.member?]) hfiles]
      rfl

end Group

namespace Manifest

theorem check_toJson (m : Manifest) : check m.toJson = .ok m := by
  have htext : ∀ t, Check.text (.string t) = .ok t := fun t => rfl
  have hgroups : Check.listOf Group.check (.array (Group.toJsonAll m.groups)) = .ok m.groups := by
    rw [Group.toJsonAll_eq_map]
    exact Check.listOf_map fun g _ => Group.checkTo_toJson _ g (Nat.le_succ _)
  unfold check toJson Check.record
  dsimp only
  rw [Check.optional_eq_ok (by simp [Value.member?]) (htext m.targetPath),
    Check.optional_eq_ok (by simp [Value.member?]) hgroups,
    Check.optional_eq_ok (by simp [Value.member?]) (htext m.log)]
  rfl

/-! ## Texts -/

theorem all_toJson {p : Value → Bool} (hstring : ∀ t, p (.string t) = true) (m : Manifest) :
    m.toJson.all p = true := by
  simp [toJson, Value.all, Value.allMembers, hstring, Group.allItems_toJsonAll hstring m.groups]

theorem collapsed_toJson (m : Manifest) : m.toJson.collapsed = m.toJson := by
  rw [toJson, Value.collapsed, Entries.collapse_eq_self]
  · simp [Value.collapsedMembers, Value.collapsed, Group.collapsedItems_toJsonAll m.groups]
  · simp [Value.collapsedMembers]

/-- **The text of a manifest is read back**, leniently always and strictly unless it is nested too deeply. -/
theorem ofText_text (d : Dialect) (m : Manifest) :
    ofText d m.text.toList =
      if d = .lenient ∨ m.toJson.nesting ≤ maxNesting then .ok m else .problem .notJson := by
  have hexact : m.toJson.all Value.isExact = true := m.all_toJson fun _ => rfl
  have hshort : m.toJson.all Value.isShort = true := m.all_toJson fun _ => rfl
  cases d with
  | lenient =>
    have hparse := parse_lenient_text .indented hexact hshort
    rw [m.collapsed_toJson] at hparse
    rw [ofText, text, hparse, if_pos (.inl rfl)]
    exact m.check_toJson
  | strict =>
    have hparse := parse_text .indented hexact
    rw [hshort] at hparse
    simp only [true_and] at hparse
    simp only [reduceCtorEq, false_or]
    rw [ofText, text]
    split
    · next v hv =>
      rw [hv] at hparse
      split at hparse
      · next hdeep =>
        cases hparse
        rw [if_pos hdeep, m.check_toJson]
      · cases hparse
    · next e he =>
      rw [he] at hparse
      split at hparse
      · cases hparse
      · next hdeep => rw [if_neg hdeep]

/-- The text has no CR that would be read as an end of line. -/
theorem normalizeNewlines_text (m : Manifest) : normalizeNewlines m.text.toList = m.text.toList := by
  rw [text, Value.text, String.toList_ofList, normalizeNewlines_render _ _ (m.all_toJson fun _ => rfl)]

end Manifest

/-! ## Files -/

namespace Job

/-- **A manifest is read back from the file that it is written to**, if it has no more levels of groups than are
    written. It can be written wherever there is room for a file, and the folders on the way to it are made; the file
    holds its indented text as UTF-8, which reads as it was written and stands for that manifest. A strict reader takes
    it for JSON just if it is not nested too deeply. -/
theorem writeManifest_faithful {path : Path} {st : RunState} {m : Manifest} (hlevels : m.levels ≤ maxLevels)
    (h : st.disk.HasRoom path) :
    ∃ st', exec (writeManifest m path) st = (.ok path, st') ∧
      st'.disk.readFile path = .ok (Utf8.encode (m.toJson.text .indented).toList) ∧
      ∃ text, (∀ fault, exec (readText path fault) st' = (.ok text, st')) ∧
        Manifest.ofText .lenient text.toList = .ok m ∧
        (Manifest.ofText .strict text.toList = .ok m ↔ m.toJson.nesting ≤ maxNesting) := by
  obtain ⟨st', hsave, hread⟩ := (canSave_iff.mpr h).exec_saveText m.text
  refine ⟨st', ?_, hread, m.text, fun fault => ?_, ?_, ?_⟩
  · rw [writeManifest, if_neg (Nat.not_lt.mpr hlevels), exec_bind, hsave]
    rfl
  · exact exec_readText hread m.normalizeNewlines_text
  · rw [Manifest.ofText_text, if_pos (.inl rfl)]
  · rw [Manifest.ofText_text]
    simp only [reduceCtorEq, false_or]
    constructor
    · intro hok
      by_contra hdeep
      rw [if_neg hdeep] at hok
      cases hok
    · exact fun hdeep => if_pos hdeep

/-- A manifest with a quote, line ends, a tab and a line separator in its names, and with empty lists inside, written to
    a folder that is not there yet, in another one that is not there either. -/
theorem writeManifest_faithful_awkward :
    let s : Settings := { targetPath := "a\"b/\u2028", parameters := .ofList [("k", "\r\n\\é")] }
    let o : Outline := { folders := [.mk "___k___" [{ name := "y" }] [.mk "z\tz" [] []], .mk "b" [] []] }
    let m := Manifest.ofOutline s o
    let path := Path.ofString "new/deep/manifest.json"
    let st : RunState := {}
    m.levels ≤ maxLevels ∧ st.disk.HasRoom path ∧ ∃ st', exec (writeManifest m path) st = (.ok path, st') ∧
      st'.disk.readFile path = .ok (Utf8.encode (m.toJson.text .indented).toList) ∧
      ∃ text, (∀ fault, exec (readText path fault) st' = (.ok text, st')) ∧
        Manifest.ofText .lenient text.toList = .ok m ∧
        (Manifest.ofText .strict text.toList = .ok m ↔ m.toJson.nesting ≤ maxNesting) := by
  intro s o m path st
  have hlevels : m.levels ≤ maxLevels := by decide +kernel +revert
  have hroom : st.disk.HasRoom path := canSave_iff.mp ⟨"", _, rfl⟩
  exact ⟨hlevels, hroom, writeManifest_faithful hlevels hroom⟩

/-- **A manifest of too many levels is not written**, and nothing is done: with 255 folders in each other there is no
    file and no folder on the way to one. -/
theorem writeManifest_chain :
    let m := Manifest.ofOutline {} { folders := [Folder.chain 254] }
    let path := Path.ofString "new/manifest.json"
    exec (writeManifest m path) {} = (.error .tooManyLevels, {}) := by
  intro m path
  have hlevels : maxLevels < m.levels := by decide +kernel +revert
  rw [writeManifest, if_pos hlevels]
  rfl

end Job

end Stencil
