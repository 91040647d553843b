import Mathlib.Data.List.Infix
import Stencil.Template.Placeholder

/-!
# `Stencil.Proofs.Template.Parts` — a text as characters and placeholders

## Contents
- **Keys.** Whether a key is found depends on the key and the underscores around it alone, and a search
  looks no further than the next blank.
- **Parts.** `parts` reads a text from the left, each placeholder as one part and each other character as
  one; `textOf` writes parts.
- **Readings.** Parts are a reading if no placeholder starts at one of their characters. Reading and writing
  undo each other on readings (`textOf_parts`, `parts_textOf`).
- **Completion.** Putting values in from the right is the same as settling one part after the other
  (`complete_eq_textOf`).
-/

namespace Stencil.Placeholder

open Text

/-! ## Keys -/

/-- The underscores on either side of a key. -/
def delimiter : List Char := ['_', '_', '_']

/-- A key that is found between its underscores. -/
def IsKey (key : List Char) : Prop := key? (key ++ delimiter) = some key

theorem delimiter?_eq_some_iff {cs rest : List Char} : delimiter? cs = some rest ↔ cs = delimiter ++ rest := by
  constructor
  · intro h
    unfold delimiter? at h
    split at h
    · rw [Option.some.inj h]
      rfl
    · cases h
  · rintro rfl
    rfl

theorem isSome_delimiter?_iff {cs : List Char} : (delimiter? cs).isSome = true ↔ delimiter <+: cs := by
  rw [Option.isSome_iff_exists]
  constructor
  · rintro ⟨rest, h⟩
    exact ⟨rest, (delimiter?_eq_some_iff.mp h).symm⟩
  · rintro ⟨rest, rfl⟩
    exact ⟨rest, rfl⟩

/-- Underscores are found in the front of a text that is long enough, whatever follows it. -/
theorem delimiter_prefix_append_iff {as : List Char} (h : delimiter.length ≤ as.length) (cs : List Char) :
    delimiter <+: as ++ cs ↔ delimiter <+: as :=
  ⟨fun hp => List.prefix_of_prefix_length_le hp (List.prefix_append as cs) h,
    fun hp => hp.trans (List.prefix_append as cs)⟩

/-- Underscores are found in front of a blank or not at all. -/
theorem delimiter_prefix_append_cons_iff {b : Char} (hb : isBlank b = true) (as cs : List Char) :
    delimiter <+: as ++ b :: cs ↔ delimiter <+: as := by
  by_cases h : delimiter.length ≤ as.length
  · exact delimiter_prefix_append_iff h (b :: cs)
  · constructor
    · intro hp
      -- the blank would be one of the underscores
      have hin : as ++ [b] <+: delimiter := by
        refine List.prefix_of_prefix_length_le ⟨cs, by simp⟩ hp ?_
        rw [List.length_append, List.length_singleton]
        omega
      have hmem : b ∈ delimiter := hin.subset (by simp)
      have hunderscore : b = '_' := by simpa [delimiter] using hmem
      rw [hunderscore] at hb
      exact absurd hb (by decide)
    · intro hp
      exact absurd hp.length_le h

/-- A key that is found stands between the start and underscores, and is found there whatever follows. -/
theorem key?_eq_some {cs key : List Char} (h : key? cs = some key) :
    IsKey key ∧ ∃ rest, cs = key ++ (delimiter ++ rest) := by
  induction cs generalizing key with
  | nil => cases h
  | cons c cs ih =>
    unfold key? at h
    split at h
    · cases h
    · next hblank =>
      split at h
      · next hfound =>
        obtain rfl := Option.some.inj h
        obtain ⟨rest, hrest⟩ := Option.isSome_iff_exists.mp hfound
        obtain rfl := delimiter?_eq_some_iff.mp hrest
        refine ⟨?_, rest, rfl⟩
        rw [IsKey, List.singleton_append, key?, if_neg hblank, if_pos (by rfl)]
      · next hfound =>
        obtain ⟨key, hkey, rfl⟩ := Option.map_eq_some_iff.mp h
        obtain ⟨hshort, rest, rfl⟩ := ih hkey
        refine ⟨?_, rest, rfl⟩
        have hlong : delimiter.length ≤ (key ++ delimiter).length := by simp
        rw [isSome_delimiter?_iff, ← List.append_assoc, delimiter_prefix_append_iff hlong,
          ← isSome_delimiter?_iff] at hfound
        rw [IsKey, List.cons_append, key?, if_neg hblank, if_neg hfound, hshort]
        rfl

/-- A key is found whatever follows its underscores. -/
theorem key?_append {key : List Char} (h : IsKey key) (rest : List Char) :
    key? (key ++ (delimiter ++ rest)) = some key := by
  -- the induction is on the text that is searched; what is found in it may be any part of the key
  suffices hall : ∀ cs found, key? (cs ++ delimiter) = some found → found.length ≤ cs.length →
      key? (cs ++ (delimiter ++ rest)) = some found from hall key key h le_rfl
  clear h
  intro cs
  induction cs with
  | nil =>
    intro found h hle
    exact absurd (List.length_eq_zero_iff.mp (Nat.le_zero.mp hle)) (key?_ne_nil h)
  | cons c cs ih =>
    intro found h hle
    rw [List.cons_append, key?] at h ⊢
    split at h
    · cases h
    · next hblank =>
      rw [if_neg hblank]
      have hlong : delimiter.length ≤ (cs ++ delimiter).length := by simp
      have hsame : (delimiter? (cs ++ (delimiter ++ rest))).isSome = true ↔
          (delimiter? (cs ++ delimiter)).isSome = true := by
        rw [isSome_delimiter?_iff, isSome_delimiter?_iff, ← List.append_assoc, delimiter_prefix_append_iff hlong]
      split at h
      · next hfound => rw [if_pos (hsame.mpr hfound), h]
      · next hfound =>
        obtain ⟨found, hkey, rfl⟩ := Option.map_eq_some_iff.mp h
        rw [if_neg (mt hsame.mp hfound), ih found hkey (by simpa using hle)]
        rfl

/-- A search for a key looks no further than the next blank. -/
theorem key?_append_blank {b : Char} (hb : isBlank b = true) (as cs : List Char) :
    key? (as ++ b :: cs) = key? as := by
  induction as with
  | nil => simp [key?, hb]
  | cons a as ih =>
    have hsame : (delimiter? (as ++ b :: cs)).isSome = (delimiter? as).isSome := by
      rw [Bool.eq_iff_iff, isSome_delimiter?_iff, isSome_delimiter?_iff, delimiter_prefix_append_cons_iff hb]
    rw [List.cons_append, key?, key?, ih, hsame]

/-- A key is found in front of any underscores, if there is something but no blank before them, and it is no longer
    than that. -/
theorem exists_key? {as : List Char} (hne : as ≠ []) (h : ∀ a ∈ as, isBlank a = false) (cs : List Char) :
    ∃ key, key? (as ++ (delimiter ++ cs)) = some key ∧ key.length ≤ as.length := by
  induction as with
  | nil => exact absurd rfl hne
  | cons a as ih =>
    have hblank : ¬ isBlank a = true := by simp [h a List.mem_cons_self]
    rw [List.cons_append, key?, if_neg hblank]
    split
    · exact ⟨[a], rfl, by simp⟩
    · next hfound =>
      have hin : as ≠ [] := by
        rintro rfl
        exact hfound rfl
      obtain ⟨key, hkey, hle⟩ := ih hin fun d hd => h d (List.mem_cons_of_mem a hd)
      exact ⟨a :: key, by rw [hkey]; rfl, Nat.succ_le_succ hle⟩

theorem isSome_key? {as : List Char} (hne : as ≠ []) (h : ∀ a ∈ as, isBlank a = false) (cs : List Char) :
    (key? (as ++ (delimiter ++ cs))).isSome = true := by
  obtain ⟨key, hkey, -⟩ := exists_key? hne h cs
  rw [hkey]
  rfl

/-- The placeholder of a key. -/
theorem opening?_eq_some {cs key : List Char} (h : opening? cs = some key) :
    IsKey key ∧ ∃ rest, cs = delimiter ++ (key ++ (delimiter ++ rest)) := by
  obtain ⟨behind, hopen, hkey⟩ := Option.bind_eq_some_iff.mp h
  obtain ⟨hshort, rest, rfl⟩ := key?_eq_some hkey
  exact ⟨hshort, rest, delimiter?_eq_some_iff.mp hopen⟩

theorem opening?_eq_none_of_no_delimiter {cs : List Char} (h : ¬ delimiter <+: cs) : opening? cs = none := by
  rw [← isSome_delimiter?_iff, Bool.not_eq_true, Option.isSome_eq_false_iff, Option.isNone_iff_eq_none] at h
  rw [opening?, h]
  rfl

theorem opening?_placeholder {key : List Char} (h : IsKey key) (rest : List Char) :
    opening? (delimiter ++ (key ++ (delimiter ++ rest))) = some key := key?_append h rest

/-! ## Parts -/

/-- A part of a text. -/
inductive Part where
  /-- A character outside placeholders. -/
  | char (c : Char)
  /-- The placeholder of a key. -/
  | placeholder (key : List Char)
  deriving DecidableEq, Repr

/-- The text of a part. -/
def Part.text : Part → List Char
  | .char c => [c]
  | .placeholder key => delimiter ++ (key ++ delimiter)

/-- The key of a part that is a placeholder. -/
def Part.key? : Part → Option (List Char)
  | .char _ => none
  | .placeholder key => some key

/-- The text of parts. -/
def textOf (ps : List Part) : List Char := ps.flatMap Part.text

/-- The parts of a text, after passing over `skip` characters of a placeholder already read. -/
def partsFrom : (skip : Nat) → List Char → List Part
  | _, [] => []
  | skip + 1, _ :: cs => partsFrom skip cs
  | 0, c :: cs =>
    match opening? (c :: cs) with
    | some key => .placeholder key :: partsFrom (key.length + 5) cs
    | none => .char c :: partsFrom 0 cs

/-- The parts of a text, read from the left. -/
def parts (cs : List Char) : List Part := partsFrom 0 cs

@[simp] theorem textOf_nil : textOf [] = [] := rfl

@[simp] theorem textOf_char (c : Char) (ps : List Part) : textOf (.char c :: ps) = c :: textOf ps := rfl

@[simp] theorem textOf_placeholder (key : List Char) (ps : List Part) :
    textOf (.placeholder key :: ps) = delimiter ++ (key ++ (delimiter ++ textOf ps)) := by
  simp [textOf, Part.text]

theorem partsFrom_skip (skip : Nat) (cs : List Char) : partsFrom skip cs = parts (cs.drop skip) := by
  induction skip generalizing cs with
  | zero => rfl
  | succ skip ih =>
    cases cs with
    | nil => rfl
    | cons c cs => exact ih cs

@[simp] theorem parts_nil : parts [] = [] := rfl

theorem parts_char {c : Char} {cs : List Char} (h : opening? (c :: cs) = none) :
    parts (c :: cs) = .char c :: parts cs := by
  rw [parts, partsFrom, h]
  rfl

/-- Behind the first underscore of a placeholder there are two more, its key and three underscores. -/
theorem drop_placeholder (key cs : List Char) :
    ('_' :: '_' :: (key ++ (delimiter ++ cs))).drop (key.length + 5) = cs := by
  rw [← List.append_assoc, ← List.cons_append, ← List.cons_append, List.drop_left' (by simp [delimiter])]

theorem parts_placeholder {key : List Char} (h : IsKey key) (cs : List Char) :
    parts (delimiter ++ (key ++ (delimiter ++ cs))) = .placeholder key :: parts cs := by
  have hopen : opening? ('_' :: '_' :: '_' :: (key ++ (delimiter ++ cs))) = some key := opening?_placeholder h cs
  show partsFrom 0 ('_' :: '_' :: '_' :: (key ++ (delimiter ++ cs))) = _
  rw [partsFrom, hopen]
  simp only
  rw [partsFrom_skip, drop_placeholder]

/-- **A text is read from the left**: it is empty, or starts with a character at which no placeholder starts, or
    with a placeholder. -/
@[elab_as_elim] theorem reading_induction {motive : List Char → Prop} (nil : motive [])
    (char : ∀ c cs, opening? (c :: cs) = none → motive cs → motive (c :: cs))
    (placeholder : ∀ key cs, IsKey key → motive cs → motive (delimiter ++ (key ++ (delimiter ++ cs))))
    (cs : List Char) : motive cs := by
  induction hn : cs.length using Nat.strongRecOn generalizing cs with
  | ind n ih =>
    cases cs with
    | nil => exact nil
    | cons c cs =>
      cases hopen : opening? (c :: cs) with
      | none => exact char c cs hopen (ih cs.length (by rw [← hn]; simp) cs rfl)
      | some key =>
        obtain ⟨hkey, rest, hrest⟩ := opening?_eq_some hopen
        rw [hrest]
        refine placeholder key rest hkey (ih rest.length ?_ rest rfl)
        rw [← hn, hrest]
        simp only [List.length_append, delimiter, List.length_cons, List.length_nil]
        omega

/-- **What has been read can be written again.** -/
theorem textOf_parts (cs : List Char) : textOf (parts cs) = cs := by
  induction cs using reading_induction with
  | nil => rfl
  | char c cs h ih => rw [parts_char h, textOf_char, ih]
  | placeholder key cs h ih => rw [parts_placeholder h, textOf_placeholder, ih]

/-! ## Readings -/

/-- Parts that a text may be read as: keys are found, and no placeholder starts at a character outside. -/
inductive IsReading : List Part → Prop
  | nil : IsReading []
  | char {c : Char} {ps : List Part} (h : opening? (c :: textOf ps) = none) (hps : IsReading ps) :
      IsReading (.char c :: ps)
  | placeholder {key : List Char} {ps : List Part} (h : IsKey key) (hps : IsReading ps) :
      IsReading (.placeholder key :: ps)

/-- The parts of a text are a reading. -/
theorem isReading_parts (cs : List Char) : IsReading (parts cs) := by
  induction cs using reading_induction with
  | nil => exact .nil
  | char c cs h ih =>
    rw [parts_char h]
    exact .char (by rw [textOf_parts, h]) ih
  | placeholder key cs h ih =>
    rw [parts_placeholder h]
    exact .placeholder h ih

/-- **A reading that has been written is read again.** -/
theorem parts_textOf {ps : List Part} (h : IsReading ps) : parts (textOf ps) = ps := by
  induction h with
  | nil => rfl
  | char h hps ih => rw [textOf_char, parts_char h, ih]
  | placeholder h hps ih => rw [textOf_placeholder, parts_placeholder h, ih]

/-! ## Completion -/

/-- What a part becomes when the keys of a scope get their values. -/
def Part.settle (scope : Scope) : Part → List Part
  | .char c => [.char c]
  | .placeholder key =>
    match scope.get? (String.ofList key) with
    | some value => value.toList.map .char
    | none => [.placeholder key]

/-- What parts become when the keys of a scope get their values. -/
def settleAll (scope : Scope) (ps : List Part) : List Part := ps.flatMap (Part.settle scope)

@[simp] theorem settleAll_nil (scope : Scope) : settleAll scope [] = [] := rfl

@[simp] theorem settleAll_char (scope : Scope) (c : Char) (ps : List Part) :
    settleAll scope (.char c :: ps) = .char c :: settleAll scope ps := rfl

theorem settleAll_placeholder_of_some {scope : Scope} {key : List Char} {value : String}
    (h : scope.get? (String.ofList key) = some value) (ps : List Part) :
    settleAll scope (.placeholder key :: ps) = value.toList.map .char ++ settleAll scope ps := by
  rw [settleAll, List.flatMap_cons, Part.settle, h]
  rfl

theorem settleAll_placeholder_of_none {scope : Scope} {key : List Char}
    (h : scope.get? (String.ofList key) = none) (ps : List Part) :
    settleAll scope (.placeholder key :: ps) = .placeholder key :: settleAll scope ps := by
  rw [settleAll, List.flatMap_cons, Part.settle, h]
  rfl

@[simp] theorem textOf_append (ps qs : List Part) : textOf (ps ++ qs) = textOf ps ++ textOf qs :=
  List.flatMap_append

@[simp] theorem textOf_map_char (cs : List Char) : textOf (cs.map .char) = cs := by
  induction cs with
  | nil => rfl
  | cons c cs ih => rw [List.map_cons, textOf_char, ih]

theorem occurrencesFrom_skip (pos skip : Nat) (cs : List Char) :
    occurrencesFrom pos skip cs = occurrencesFrom (pos + skip) 0 (cs.drop skip) := by
  induction skip generalizing pos cs with
  | zero => rfl
  | succ skip ih =>
    cases cs with
    | nil => rfl
    | cons c cs =>
      rw [occurrencesFrom, ih, List.drop_succ_cons]
      congr 1
      omega

theorem occurrencesFrom_char {c : Char} {cs : List Char} (h : opening? (c :: cs) = none) (pos : Nat) :
    occurrencesFrom pos 0 (c :: cs) = occurrencesFrom (pos + 1) 0 cs := by
  rw [occurrencesFrom, h]

theorem occurrencesFrom_placeholder {key : List Char} (h : IsKey key) (pos : Nat) (cs : List Char) :
    occurrencesFrom pos 0 (delimiter ++ (key ++ (delimiter ++ cs))) =
      ⟨pos, key⟩ :: occurrencesFrom (pos + key.length + 6) 0 cs := by
  have hopen : opening? ('_' :: '_' :: '_' :: (key ++ (delimiter ++ cs))) = some key := opening?_placeholder h cs
  show occurrencesFrom pos 0 ('_' :: '_' :: '_' :: (key ++ (delimiter ++ cs))) = _
  rw [occurrencesFrom, hopen]
  simp only
  rw [occurrencesFrom_skip, drop_placeholder]
  congr 2
  omega

/-- The keys of a text are those of its parts. -/
theorem keysOf_eq_filterMap (cs : List Char) : keysOf cs = (parts cs).filterMap Part.key? := by
  suffices h : ∀ pos, (occurrencesFrom pos 0 cs).map Occurrence.key = (parts cs).filterMap Part.key? from h 0
  induction cs using reading_induction with
  | nil => intro pos; rfl
  | char c cs h ih =>
    intro pos
    rw [occurrencesFrom_char h, parts_char h, List.filterMap_cons_none rfl, ih]
  | placeholder key cs h ih =>
    intro pos
    rw [occurrencesFrom_placeholder h, parts_placeholder h, List.map_cons, ih]
    rfl

/-- A text without underscores has no keys. -/
theorem keysOf_eq_nil {cs : List Char} (h : '_' ∉ cs) : keysOf cs = [] := by
  rw [keysOf_eq_filterMap]
  induction cs using reading_induction with
  | nil => rfl
  | char c cs hopen ih =>
    rw [parts_char hopen, List.filterMap_cons_none rfl, ih fun hin => h (List.mem_cons_of_mem c hin)]
  | placeholder key cs hkey ih => exact absurd (by simp [delimiter]) h

/-- **Putting values in from the right is settling part by part.** -/
theorem complete_eq_textOf (scope : Scope) (cs : List Char) :
    complete scope cs = textOf (settleAll scope (parts cs)) := by
  -- what stands before the occurrences that are completed is kept, whatever it is
  suffices h : ∀ before : List Char, (occurrencesFrom before.length 0 cs).foldr (resolve scope) (before ++ cs) =
      before ++ textOf (settleAll scope (parts cs)) from h []
  induction cs using reading_induction with
  | nil => intro before; simp [occurrencesFrom]
  | char c cs h ih =>
    intro before
    have hstep := ih (before ++ [c])
    rw [List.length_append, List.length_singleton, List.append_assoc, List.append_assoc] at hstep
    rw [occurrencesFrom_char h, parts_char h, settleAll_char, textOf_char]
    exact hstep
  | placeholder key cs h ih =>
    intro before
    have hlength : (before ++ (delimiter ++ (key ++ delimiter))).length = before.length + key.length + 6 := by
      simp only [List.length_append, delimiter, List.length_cons, List.length_nil]
      omega
    have hstep := ih (before ++ (delimiter ++ (key ++ delimiter)))
    rw [hlength] at hstep
    simp only [List.append_assoc] at hstep
    rw [occurrencesFrom_placeholder h, parts_placeholder h, List.foldr_cons, hstep, resolve]
    cases hvalue : scope.get? (String.ofList key) with
    | none => simp [settleAll_placeholder_of_none hvalue]
    | some value =>
      have hbehind : (before ++ (delimiter ++ (key ++ (delimiter ++ textOf (settleAll scope (parts cs)))))).drop
          (Occurrence.stop ⟨before.length, key⟩) = textOf (settleAll scope (parts cs)) := by
        have hassoc : before ++ (delimiter ++ (key ++ (delimiter ++ textOf (settleAll scope (parts cs))))) =
            before ++ (delimiter ++ (key ++ delimiter)) ++ textOf (settleAll scope (parts cs)) := by simp
        rw [hassoc]
        exact List.drop_left' hlength
      simp only
      rw [splice, hbehind, List.take_left' rfl, settleAll_placeholder_of_some hvalue]
      simp

/-! ### One step of a text -/

theorem keysOf_char {c : Char} {cs : List Char} (h : opening? (c :: cs) = none) : keysOf (c :: cs) = keysOf cs := by
  rw [keysOf_eq_filterMap, parts_char h, List.filterMap_cons_none rfl, keysOf_eq_filterMap]

theorem keysOf_placeholder {key : List Char} (h : IsKey key) (cs : List Char) :
    keysOf (delimiter ++ (key ++ (delimiter ++ cs))) = key :: keysOf cs := by
  rw [keysOf_eq_filterMap, parts_placeholder h, keysOf_eq_filterMap]
  rfl

theorem complete_char {c : Char} {cs : List Char} (h : opening? (c :: cs) = none) (scope : Scope) :
    complete scope (c :: cs) = c :: complete scope cs := by
  rw [complete_eq_textOf, parts_char h, settleAll_char, textOf_char, complete_eq_textOf]

theorem complete_placeholder {key : List Char} (h : IsKey key) (scope : Scope) (cs : List Char) :
    complete scope (delimiter ++ (key ++ (delimiter ++ cs))) =
      (match scope.get? (String.ofList key) with
        | some value => value.toList
        | none => delimiter ++ (key ++ delimiter)) ++ complete scope cs := by
  rw [complete_eq_textOf, parts_placeholder h, complete_eq_textOf]
  cases hvalue : scope.get? (String.ofList key) with
  | none => simp [settleAll_placeholder_of_none hvalue]
  | some value => simp [settleAll_placeholder_of_some hvalue]

end Stencil.Placeholder
