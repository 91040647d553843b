import Stencil.Proofs.Template.Parts

/-!
# `Stencil.Proofs.Template.Stages` — completion in stages

## Contents
- **Safe scopes.** The values of a safe scope hold no three underscores in a row and neither start nor end with
  an underscore.
- **Seams.** At no seam between what stood in the text and what was put in does a placeholder start, so settling
  a reading from a safe scope gives a reading (`IsReading.settleAll`).
- **Stages.** A text that is completed from a safe scope keeps just the placeholders of other keys, and can be
  completed further as if all had been done at once (`fill_in_stages`).
-/

namespace Stencil

/-! ## Safe scopes -/

/-- A scope whose values neither hold the underscores of a placeholder nor lend one to what stands beside them. -/
structure Scope.IsSafe (s : Scope) : Prop where
  unbroken : ∀ e ∈ s.entries, ¬ Placeholder.delimiter <:+: e.2.toList
  startsClear : ∀ e ∈ s.entries, e.2.toList.head? ≠ some '_'
  endsClear : ∀ e ∈ s.entries, e.2.toList.getLast? ≠ some '_'

namespace Placeholder

open Text

/-! ## Seams -/

/-- Underscores do not reach over the end of a text that does not end with one. -/
theorem delimiter_prefix_append_iff_of_getLast? {as : List Char} (hne : as ≠ []) (hlast : as.getLast? ≠ some '_')
    (cs : List Char) : delimiter <+: as ++ cs ↔ delimiter <+: as := by
  by_cases h : delimiter.length ≤ as.length
  · exact delimiter_prefix_append_iff h cs
  · refine ⟨fun hp => ?_, fun hp => absurd hp.length_le h⟩
    -- a shorter text would consist of underscores, the last one included
    have hin : as <+: delimiter := List.prefix_of_prefix_length_le (List.prefix_append as cs) hp (by omega)
    have hmem : as.getLast hne ∈ delimiter := hin.subset (List.getLast_mem hne)
    have hunderscore : as.getLast hne = '_' := by simpa [delimiter] using hmem
    rw [List.getLast?_eq_some_getLast hne, hunderscore] at hlast
    exact absurd rfl hlast

/-- A placeholder that starts in front of another one starts with a character that is no underscore. -/
theorem getLast?_gap_ne {gap key : List Char} (hkey : IsKey key) (rest : List Char)
    (h : ∀ before c, gap = before ++ [c] → opening? (c :: (delimiter ++ (key ++ (delimiter ++ rest)))) = none) :
    gap.getLast? ≠ some '_' := by
  intro hlast
  obtain ⟨before, rfl⟩ := List.getLast?_eq_some_iff.mp hlast
  have hnone := h before '_' rfl
  -- with an underscore more in front, a placeholder starts one character earlier
  have hsome : (key? (('_' :: key) ++ (delimiter ++ rest))).isSome = true := by
    refine isSome_key? (List.cons_ne_nil _ _) (fun a ha => ?_) rest
    rcases List.mem_cons.mp ha with rfl | ha
    · decide
    · exact not_isBlank_of_mem_key? hkey ha
  have hopen : opening? ('_' :: (delimiter ++ (key ++ (delimiter ++ rest)))) =
      key? (('_' :: key) ++ (delimiter ++ rest)) := rfl
  rw [← hopen, hnone] at hsome
  cases hsome

/-- **No placeholder starts in a gap**, whatever comes to stand behind it: its underscores are shut off by a blank
    before the placeholder that follows the gap. -/
theorem opening?_gap {gap rest : List Char} (hne : gap ≠ []) (hlast : gap.getLast? ≠ some '_')
    (h : opening? (gap ++ (delimiter ++ rest)) = none) (cs : List Char) : opening? (gap ++ cs) = none := by
  by_cases hp : delimiter <+: gap
  · obtain ⟨inner, rfl⟩ := hp
    have hinner : inner ≠ [] := by
      rintro rfl
      exact hlast rfl
    have hkey : key? (inner ++ (delimiter ++ rest)) = none := h
    obtain ⟨b, hb, hblank⟩ : ∃ b ∈ inner, isBlank b = true := by
      by_contra hnot
      have hsome := isSome_key? hinner (fun a ha => by simpa using fun hblank => hnot ⟨a, ha, hblank⟩) rest
      rw [hkey] at hsome
      cases hsome
    obtain ⟨as, bs, rfl⟩ := List.append_of_mem hb
    show key? (as ++ b :: bs ++ cs) = none
    rw [List.append_assoc, List.cons_append, key?_append_blank hblank] at hkey ⊢
    exact hkey
  · exact opening?_eq_none_of_no_delimiter (mt (delimiter_prefix_append_iff_of_getLast? hne hlast cs).mp hp)

/-- **No placeholder starts in a value** that holds no three underscores and ends with none. -/
theorem IsReading.value {value : List Char} {ps : List Part} (h : IsReading ps)
    (hunbroken : ¬ delimiter <:+: value) (hlast : value.getLast? ≠ some '_') :
    IsReading (value.map .char ++ ps) := by
  induction value with
  | nil => exact h
  | cons c value ih =>
    have hrest : IsReading (value.map .char ++ ps) := by
      refine ih (fun hin => hunbroken (hin.trans (List.suffix_cons c value).isInfix)) ?_
      intro hin
      cases value with
      | nil => cases hin
      | cons d value => exact hlast (by rw [List.getLast?_cons_cons, hin])
    have hnone : opening? (c :: textOf (value.map .char ++ ps)) = none := by
      refine opening?_eq_none_of_no_delimiter fun hp => ?_
      rw [textOf_append, textOf_map_char, ← List.cons_append,
        delimiter_prefix_append_iff_of_getLast? (List.cons_ne_nil c value) hlast] at hp
      exact hunbroken hp.isInfix
    exact .char hnone hrest

/-- The end of a reading is a reading. -/
theorem IsReading.of_append (ps : List Part) {qs : List Part} (h : IsReading (ps ++ qs)) : IsReading qs := by
  induction ps with
  | nil => exact h
  | cons p ps ih =>
    cases h with
    | char h hps => exact ih hps
    | placeholder h hps => exact ih hps

/-- Parts are characters up to the end or up to a placeholder. -/
theorem exists_gap (ps : List Part) :
    ∃ gap : List Char, ps = gap.map .char ∨ ∃ key qs, ps = gap.map .char ++ .placeholder key :: qs := by
  induction ps with
  | nil => exact ⟨[], .inl rfl⟩
  | cons p ps ih =>
    cases p with
    | placeholder key => exact ⟨[], .inr ⟨key, ps, rfl⟩⟩
    | char c =>
      obtain ⟨gap, rfl | ⟨key, qs, rfl⟩⟩ := ih
      · exact ⟨c :: gap, .inl rfl⟩
      · exact ⟨c :: gap, .inr ⟨key, qs, rfl⟩⟩

@[simp] theorem settleAll_append (scope : Scope) (ps qs : List Part) :
    settleAll scope (ps ++ qs) = settleAll scope ps ++ settleAll scope qs := List.flatMap_append

@[simp] theorem settleAll_map_char (scope : Scope) (cs : List Char) :
    settleAll scope (cs.map .char) = cs.map .char := by
  induction cs with
  | nil => rfl
  | cons c cs ih => rw [List.map_cons, settleAll_char, ih]

/-- At a character outside placeholders none starts after others have been settled either. -/
theorem IsReading.opening?_settleAll {c : Char} {ps : List Part} (h : IsReading (.char c :: ps)) (scope : Scope) :
    opening? (c :: textOf (settleAll scope ps)) = none := by
  obtain ⟨gap, rfl | ⟨key, qs, rfl⟩⟩ := exists_gap ps
  · -- nothing is settled up to the end
    cases h with
    | char h hps => rwa [settleAll_map_char]
  · have hkey : IsKey key := by
      cases IsReading.of_append (.char c :: gap.map .char) h with
      | placeholder hkey hqs => exact hkey
    have hlast : (c :: gap).getLast? ≠ some '_' := by
      refine getLast?_gap_ne hkey (textOf qs) fun before d hd => ?_
      have hsplit : .char c :: (gap.map .char ++ .placeholder key :: qs) =
          before.map .char ++ .char d :: .placeholder key :: qs := by
        rw [← List.cons_append, ← List.map_cons, hd, List.map_append, List.append_assoc]
        rfl
      rw [hsplit] at h
      cases IsReading.of_append (before.map .char) h with
      | char h hps => simpa using h
    have hopen : opening? ((c :: gap) ++ (delimiter ++ (key ++ (delimiter ++ textOf qs)))) = none := by
      cases h with
      | char h hps => simpa using h
    rw [settleAll_append, settleAll_map_char, textOf_append, textOf_map_char]
    exact opening?_gap (List.cons_ne_nil c gap) hlast hopen _

/-- **Settling a reading from a safe scope gives a reading.** With which character a value starts does not matter: what
    stands before it is shut off already. -/
theorem IsReading.settleAll {scope : Scope} (hsafe : scope.IsSafe) {ps : List Part} (h : IsReading ps) :
    IsReading (settleAll scope ps) := by
  induction h with
  | nil => exact .nil
  | char h hps ih => exact .char ((IsReading.char h hps).opening?_settleAll scope) ih
  | @placeholder key ps hkey hps ih =>
    cases hvalue : scope.get? (String.ofList key) with
    | none =>
      rw [settleAll_placeholder_of_none hvalue]
      exact .placeholder hkey ih
    | some value =>
      have hmem := Entries.mem_of_get? hvalue
      rw [settleAll_placeholder_of_some hvalue]
      exact ih.value (hsafe.unbroken _ hmem) (hsafe.endsClear _ hmem)

/-! ## Stages -/

/-- The parts of a text that has been completed from a safe scope are those of the text, settled. -/
theorem parts_complete {scope : Scope} (hsafe : scope.IsSafe) (cs : List Char) :
    parts (complete scope cs) = settleAll scope (parts cs) := by
  rw [complete_eq_textOf, parts_textOf ((isReading_parts cs).settleAll hsafe)]

/-- Settling leaves the placeholders of other keys. -/
theorem filterMap_key?_settleAll (scope : Scope) (ps : List Part) :
    (settleAll scope ps).filterMap Part.key? =
      (ps.filterMap Part.key?).filter fun key => (scope.get? (String.ofList key)).isNone := by
  induction ps with
  | nil => rfl
  | cons p ps ih =>
    cases p with
    | char c => exact ih
    | placeholder key =>
      have hhead : (Part.placeholder key :: ps).filterMap Part.key? = key :: ps.filterMap Part.key? := rfl
      rw [hhead]
      cases hvalue : scope.get? (String.ofList key) with
      | none =>
        rw [settleAll_placeholder_of_none hvalue, List.filter_cons_of_pos (by simp [hvalue]), ← ih]
        rfl
      | some value =>
        have hchars : (value.toList.map Part.char).filterMap Part.key? = [] :=
          List.filterMap_eq_nil_iff.mpr fun p hp => by
            obtain ⟨c, -, rfl⟩ := List.mem_map.mp hp
            rfl
        rw [settleAll_placeholder_of_some hvalue, List.filter_cons_of_neg (by simp [hvalue]), List.filterMap_append,
          hchars, List.nil_append, ih]

/-- Settling from one scope and then from another is settling from the first one laid over the second. -/
theorem settleAll_settleAll (s h : Scope) (ps : List Part) :
    settleAll h (settleAll s ps) = settleAll (Scope.merged (some s) h) ps := by
  induction ps with
  | nil => rfl
  | cons p ps ih =>
    cases p with
    | char c => simp [ih]
    | placeholder key =>
      have hmerged := Scope.get?_merged s h (String.ofList key)
      cases hvalue : s.get? (String.ofList key) with
      | some value =>
        rw [hvalue, Option.some_or] at hmerged
        rw [settleAll_placeholder_of_some hvalue, settleAll_append, settleAll_map_char, ih,
          settleAll_placeholder_of_some hmerged]
      | none =>
        rw [hvalue, Option.none_or] at hmerged
        rw [settleAll_placeholder_of_none hvalue]
        cases hother : h.get? (String.ofList key) with
        | some value =>
          rw [settleAll_placeholder_of_some hother, settleAll_placeholder_of_some (hmerged.trans hother), ih]
        | none =>
          rw [settleAll_placeholder_of_none hother, settleAll_placeholder_of_none (hmerged.trans hother), ih]

/-- Only the values that a scope gives matter. -/
theorem settleAll_congr {s h : Scope} (heq : ∀ name, s.get? name = h.get? name) (ps : List Part) :
    settleAll s ps = settleAll h ps := by
  refine List.flatMap_congr fun p _ => ?_
  cases p with
  | char c => rfl
  | placeholder key => rw [Part.settle, Part.settle, heq]

theorem fill_fill {s : Scope} (hsafe : s.IsSafe) (h : Scope) (t : String) :
    fill h (fill s t) = fill (Scope.merged (some s) h) t := by
  simp only [fill, String.toList_ofList]
  rw [complete_eq_textOf h, parts_complete hsafe, settleAll_settleAll, complete_eq_textOf]

theorem keys_fill {s : Scope} (hsafe : s.IsSafe) (t : String) :
    keys (fill s t) = (keys t).filter fun key => key ∉ Entries.keys s.entries := by
  simp only [keys, fill, String.toList_ofList]
  rw [keysOf_eq_filterMap, parts_complete hsafe, filterMap_key?_settleAll, ← keysOf_eq_filterMap, List.filter_map]
  congr 1
  refine List.filter_congr fun key _ => ?_
  rw [Function.comp_apply, Bool.eq_iff_iff, Option.isNone_iff_eq_none, decide_eq_true_iff]
  exact Entries.get?_eq_none_iff

/-- **Completion in stages.** A text that is completed from a safe scope keeps just the placeholders of the keys that
    the scope does not have, in order. Completing it from any other scope then gives what completing it from both at
    once gives, the safe scope being the file's own; so completing it from the same scope again changes nothing. -/
theorem fill_in_stages {s : Scope} (hsafe : s.IsSafe) (t : String) :
    keys (fill s t) = (keys t).filter (fun key => key ∉ Entries.keys s.entries) ∧
      (∀ h : Scope, fill h (fill s t) = fill (Scope.merged (some s) h) t) ∧
      fill s (fill s t) = fill s t := by
  refine ⟨keys_fill hsafe t, fun h => fill_fill hsafe h t, ?_⟩
  have hsame : ∀ name, (Scope.merged (some s) s).get? name = s.get? name := by
    intro name
    rw [Scope.get?_merged, Option.or_self]
  rw [fill_fill hsafe, fill, fill, complete_eq_textOf, complete_eq_textOf, settleAll_congr hsame]

/-- An empty value between a placeholder that stays and one that goes: no underscores are joined. -/
theorem fill_in_stages_empty_value :
    let s : Scope := .ofList [("A", ""), ("B", "x_y")]
    let t := "___C______A______B___ ___A"
    s.IsSafe ∧ keys (fill s t) = ["C"] ∧
      (∀ h : Scope, fill h (fill s t) = fill (Scope.merged (some s) h) t) ∧ fill s (fill s t) = fill s t := by
  intro s t
  have hrest : (keys t).filter (fun key => key ∉ Entries.keys s.entries) = ["C"] := by decide +kernel +revert
  have hsafe : s.IsSafe := ⟨by decide +kernel, by decide +kernel, by decide +kernel⟩
  obtain ⟨hkeys, hstages, hagain⟩ := fill_in_stages hsafe t
  exact ⟨hsafe, hkeys.trans hrest, hstages, hagain⟩

end Placeholder

end Stencil
