import Stencil.Proofs.Template.Parts

/-!
# `Stencil.Proofs.Template.Scan` — completion in one pass from the left

`complete` first finds all placeholders and then puts values in from the right. `scan` is what a reader would do with
a finger on the text: it looks at one position after the other, and where a placeholder starts, it writes the value and
goes on behind the placeholder. It never sees a value that it has written.

## Contents
- **Positions.** `Closes text p e` says that a placeholder from `p` on can end with the underscores at `e`; `closing?`
  is the least such `e`.
- **The scanner.** `scan` collects the keys that it meets and what it writes.
- **Agreement.** A placeholder closes where its key ends (`closing?_placeholder`), and nothing closes where none starts
  (`closing?_eq_none`); so both passes give the same (`scan_eq_fill`).
-/

namespace Stencil.Placeholder

open Text

/-! ## Positions -/

/-- A placeholder whose first underscore is at `p` can end with the underscores at `e`. -/
@[mk_iff] structure Closes (text : List Char) (p e : Nat) : Prop where
  /-- Three underscores stand at `p`. -/
  opened : delimiter <+: text.drop p
  /-- There is something between them and those at `e`. -/
  room : p + 4 ≤ e
  /-- Three underscores stand at `e`. -/
  closed : delimiter <+: text.drop e
  /-- No blank stands between them. -/
  unbroken : ∀ c ∈ text.extract (p + 3) e, isBlank c = false

instance (text : List Char) (p : Nat) : DecidablePred (Closes text p) := fun e =>
  decidable_of_iff (delimiter.isPrefixOf (text.drop p) = true ∧ p + 4 ≤ e ∧
      delimiter.isPrefixOf (text.drop e) = true ∧ (text.extract (p + 3) e).all (!isBlank ·) = true) <| by
    simp [closes_iff]

/-- Where the placeholder that starts at `p` ends: the least position at which it can. -/
def closing? (text : List Char) (p : Nat) : Option Nat :=
  (List.range text.length).find? fun e => Closes text p e

theorem Closes.lt_length {text : List Char} {p e : Nat} (h : Closes text p e) : e < text.length := by
  have hle := h.closed.length_le
  rw [List.length_drop] at hle
  have hthree : delimiter.length = 3 := rfl
  omega

theorem closing?_eq_some_iff {text : List Char} {p e : Nat} :
    closing? text p = some e ↔ Closes text p e ∧ ∀ e' < e, ¬ Closes text p e' := by
  rw [closing?, List.find?_range_eq_some]
  simp only [decide_eq_true_eq, List.mem_range, Bool.not_eq_true', decide_eq_false_iff_not]
  exact ⟨fun h => ⟨h.1, h.2.2⟩, fun h => ⟨h.1, h.1.lt_length, h.2⟩⟩

theorem closing?_eq_none_iff {text : List Char} {p : Nat} : closing? text p = none ↔ ∀ e, ¬ Closes text p e := by
  rw [closing?, List.find?_eq_none]
  simp only [List.mem_range, decide_eq_true_eq]
  exact ⟨fun h e he => h e he.lt_length he, fun h e _ => h e⟩

/-! ## The scanner -/

/-- The value of a key: the file's own, or else that of the run. Either scope may be missing. -/
def valueOf? (own run : Option Scope) (key : String) : Option String :=
  match own.bind fun s => s.get? key with
  | some value => some value
  | none => run.bind fun s => s.get? key

/-- What a scanner has met and written. -/
@[ext] structure Scanned where
  /-- The keys of the placeholders, in order. -/
  keys : List String
  /-- What was written. -/
  output : List Char

/-- Reads a text from position `p` on. A placeholder that starts there is replaced by the value of its key, or
    written as it stands if the key has none; any other character is written as it is. -/
def scan (own run : Option Scope) (text : List Char) (p : Nat) : Scanned :=
  if h : p < text.length then
    match hclose : closing? text p with
    | some e =>
      let key := String.ofList (text.extract (p + 3) e)
      let written :=
        match valueOf? own run key with
        | some value => value.toList
        | none => text.extract p (e + 3)
      let rest := scan own run text (e + 3)
      ⟨key :: rest.keys, written ++ rest.output⟩
    | none =>
      let rest := scan own run text (p + 1)
      ⟨rest.keys, text[p] :: rest.output⟩
  else ⟨[], []⟩
termination_by text.length - p
decreasing_by
  · have := (closing?_eq_some_iff.mp hclose).1.room
    omega
  · omega

theorem scan_end (own run : Option Scope) (text : List Char) : scan own run text text.length = ⟨[], []⟩ := by
  rw [scan, dif_neg (Nat.lt_irrefl _)]

theorem scan_char (own run : Option Scope) {text : List Char} {p : Nat} (h : p < text.length)
    (hclose : closing? text p = none) :
    scan own run text p = ⟨(scan own run text (p + 1)).keys, text[p] :: (scan own run text (p + 1)).output⟩ := by
  rw [scan, dif_pos h]
  split
  · next e he => rw [hclose] at he; cases he
  · rfl

theorem scan_placeholder (own run : Option Scope) {text : List Char} {p e : Nat} (hclose : closing? text p = some e) :
    scan own run text p =
      ⟨String.ofList (text.extract (p + 3) e) :: (scan own run text (e + 3)).keys,
        (match valueOf? own run (String.ofList (text.extract (p + 3) e)) with
          | some value => value.toList
          | none => text.extract p (e + 3)) ++ (scan own run text (e + 3)).output⟩ := by
  have hcloses := (closing?_eq_some_iff.mp hclose).1
  have h : p < text.length := by
    have := hcloses.room
    have := hcloses.lt_length
    omega
  rw [scan, dif_pos h]
  split
  · next e' he =>
    rw [hclose] at he
    cases he
    rfl
  · next he => rw [hclose] at he; cases he

/-! ## Agreement -/

theorem drop_behind (before cs : List Char) (n : Nat) :
    (before ++ (delimiter ++ cs)).drop (before.length + 3 + n) = cs.drop n := by
  have hlength : (before ++ delimiter).length = before.length + 3 := List.length_append
  rw [← List.append_assoc, ← hlength, List.drop_length_add_append]

theorem extract_behind (before cs : List Char) (n : Nat) :
    (before ++ (delimiter ++ cs)).extract (before.length + 3) (before.length + 3 + n) = cs.take n := by
  have hdrop := drop_behind before cs 0
  rw [Nat.add_zero, List.drop_zero] at hdrop
  rw [List.extract_eq_take_drop, hdrop, Nat.add_sub_cancel_left]

theorem extract_placeholder (before key cs : List Char) :
    (before ++ (delimiter ++ (key ++ (delimiter ++ cs)))).extract before.length (before.length + 3 + key.length + 3) =
      delimiter ++ (key ++ delimiter) := by
  have hlength : (delimiter ++ (key ++ delimiter)).length = before.length + 3 + key.length + 3 - before.length := by
    simp only [List.length_append, delimiter, List.length_cons, List.length_nil]
    omega
  have hassoc : delimiter ++ (key ++ (delimiter ++ cs)) = delimiter ++ (key ++ delimiter) ++ cs := by simp
  rw [List.extract_eq_take_drop, List.drop_left' rfl, hassoc, List.take_left' hlength]

/-- What closes behind a text is a key between underscores. -/
theorem closes_append_iff {before cs : List Char} {e : Nat} :
    Closes (before ++ cs) before.length e ↔
      ∃ key rest, cs = delimiter ++ (key ++ (delimiter ++ rest)) ∧ key ≠ [] ∧ (∀ c ∈ key, isBlank c = false) ∧
        e = before.length + 3 + key.length := by
  constructor
  · intro h
    obtain ⟨behind, hbehind⟩ := h.opened
    rw [List.drop_left' rfl] at hbehind
    subst hbehind
    have hroom := h.room
    obtain ⟨n, rfl⟩ : ∃ n, e = before.length + 3 + n := ⟨e - (before.length + 3), by omega⟩
    have hclosed := h.closed
    have hunbroken := h.unbroken
    rw [drop_behind] at hclosed
    rw [extract_behind] at hunbroken
    obtain ⟨rest, hrest⟩ := hclosed
    have hlength : (behind.take n).length = n := by
      refine List.length_take_of_le (Nat.le_of_lt ?_)
      have hpos : 0 < (behind.drop n).length := by rw [← hrest]; simp [delimiter]
      rw [List.length_drop] at hpos
      omega
    refine ⟨behind.take n, rest, ?_, ?_, hunbroken, by rw [hlength]⟩
    · rw [hrest, List.take_append_drop]
    · intro hnil
      rw [hnil, List.length_nil] at hlength
      omega
  · rintro ⟨key, rest, rfl, hne, hblank, rfl⟩
    have hpos := List.length_pos_iff.mpr hne
    refine ⟨?_, by omega, ?_, ?_⟩
    · rw [List.drop_left' rfl]
      exact List.prefix_append _ _
    · rw [drop_behind, List.drop_left' rfl]
      exact List.prefix_append _ _
    · rw [extract_behind, List.take_left' rfl]
      exact hblank

/-- Nothing closes where no placeholder starts. -/
theorem closing?_eq_none {cs : List Char} (h : opening? cs = none) (before : List Char) :
    closing? (before ++ cs) before.length = none := by
  refine closing?_eq_none_iff.mpr fun e he => ?_
  obtain ⟨key, rest, rfl, hne, hblank, -⟩ := closes_append_iff.mp he
  have hsome := isSome_key? hne hblank rest
  have hnone : key? (key ++ (delimiter ++ rest)) = none := h
  rw [hnone] at hsome
  cases hsome

/-- **A placeholder closes where its key ends**, and no earlier: a shorter key would have been found. -/
theorem closing?_placeholder {key : List Char} (h : IsKey key) (before rest : List Char) :
    closing? (before ++ (delimiter ++ (key ++ (delimiter ++ rest)))) before.length =
      some (before.length + 3 + key.length) := by
  have hfound := key?_append h rest
  refine closing?_eq_some_iff.mpr ⟨closes_append_iff.mpr ?_, fun e he hcloses => ?_⟩
  · exact ⟨key, rest, rfl, key?_ne_nil h, fun c => not_isBlank_of_mem_key? h, rfl⟩
  · obtain ⟨short, rest', heq, hne, hblank, rfl⟩ := closes_append_iff.mp hcloses
    obtain ⟨found, hshort, hle⟩ := exists_key? hne hblank rest'
    rw [← List.append_cancel_left heq, hfound] at hshort
    cases hshort
    omega

/-- A scope that is missing gives no values. -/
theorem get?_merged_eq_valueOf? (own run : Option Scope) (key : String) :
    (Scope.merged own (run.getD .empty)).get? key = valueOf? own run key := by
  have hrun : (run.getD .empty).get? key = run.bind fun s => s.get? key := by
    cases run with
    | none => rfl
    | some s => rfl
  cases own with
  | none => exact hrun
  | some s =>
    rw [Scope.get?_merged, hrun]
    unfold valueOf?
    cases hvalue : s.get? key with
    | none => simp [hvalue]
    | some value => simp [hvalue]

/-- **From the position behind any text, the scanner goes through the parts of what follows.** -/
theorem scan_append (own run : Option Scope) (before cs : List Char) :
    scan own run (before ++ cs) before.length =
      ⟨(keysOf cs).map String.ofList, complete (Scope.merged own (run.getD .empty)) cs⟩ := by
  -- the text before the position grows by what has been read
  induction cs using reading_induction generalizing before with
  | nil =>
    rw [List.append_nil, scan_end]
    rfl
  | char c cs h ih =>
    have hstep := ih (before ++ [c])
    rw [List.length_append, List.length_singleton, List.append_assoc, List.singleton_append] at hstep
    rw [scan_char own run (by simp) (closing?_eq_none h before), hstep, keysOf_char h, complete_char h]
    simp
  | placeholder key cs h ih =>
    have hlength : (before ++ (delimiter ++ (key ++ delimiter))).length = before.length + 3 + key.length + 3 := by
      simp only [List.length_append, delimiter, List.length_cons, List.length_nil]
      omega
    have hstep := ih (before ++ (delimiter ++ (key ++ delimiter)))
    rw [hlength] at hstep
    simp only [List.append_assoc] at hstep
    rw [scan_placeholder own run (closing?_placeholder h before cs), extract_behind, List.take_left' rfl,
      extract_placeholder, hstep, keysOf_placeholder h, complete_placeholder h, get?_merged_eq_valueOf?]
    rfl

/-- **Completion from the right is one pass from the left.** -/
theorem scan_eq_fill (own run : Option Scope) (t : String) :
    scan own run t.toList 0 = ⟨keys t, (fill (Scope.merged own (run.getD .empty)) t).toList⟩ := by
  rw [keys, fill, String.toList_ofList]
  exact scan_append own run [] t.toList

end Stencil.Placeholder
