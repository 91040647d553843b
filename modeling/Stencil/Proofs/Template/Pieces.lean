import Stencil.Proofs.Template.Parts

/-!
# `Stencil.Proofs.Template.Pieces` — completion piece by piece

A key has no blank, so a blank shuts off what stands before it from what stands behind it: runs of underscores on its
two sides never make a placeholder together, and no value that is put in on one side reaches over it.

## Contents
- **Blanks.** Whether a placeholder starts in front of a blank does not depend on what stands behind the blank
  (`opening?_append_blank`).
- **Two pieces.** Keys and completion of a text with a blank in it (`keysOf_append_blank`, `complete_append_blank`).
- **Lines.** `textOfLines` writes lines, each with the blanks that end it. A text is completed line by line
  (`fill_piece_by_piece`).
-/

namespace Stencil.Placeholder

open Text

variable {b : Char}

/-! ## Blanks -/

/-- **Behind a blank nothing matters** to whether a placeholder starts in front of it. -/
theorem opening?_append_blank (hb : isBlank b = true) (as cs : List Char) :
    opening? (as ++ b :: cs) = opening? as := by
  by_cases hp : delimiter <+: as
  · obtain ⟨behind, rfl⟩ := hp
    show key? (behind ++ b :: cs) = key? behind
    exact key?_append_blank hb behind cs
  · rw [opening?_eq_none_of_no_delimiter hp]
    exact opening?_eq_none_of_no_delimiter (mt (delimiter_prefix_append_cons_iff hb as cs).mp hp)

/-- No placeholder starts at a blank. -/
theorem opening?_blank (hb : isBlank b = true) (cs : List Char) : opening? (b :: cs) = none :=
  opening?_append_blank hb [] cs

/-! ## Two pieces -/

theorem keysOf_append_blank (hb : isBlank b = true) (as cs : List Char) :
    keysOf (as ++ b :: cs) = keysOf as ++ keysOf cs := by
  induction as using reading_induction with
  | nil => exact keysOf_char (opening?_blank hb cs)
  | char c as h ih =>
    have hopen : opening? (c :: (as ++ b :: cs)) = none := by
      rw [← List.cons_append, opening?_append_blank hb, h]
    rw [List.cons_append, keysOf_char hopen, keysOf_char h, ih]
  | placeholder key as h ih =>
    simp only [List.append_assoc]
    rw [keysOf_placeholder h, keysOf_placeholder h, ih, List.cons_append]

theorem complete_append_blank (hb : isBlank b = true) (scope : Scope) (as cs : List Char) :
    complete scope (as ++ b :: cs) = complete scope as ++ b :: complete scope cs := by
  induction as using reading_induction with
  | nil => exact complete_char (opening?_blank hb cs) scope
  | char c as h ih =>
    have hopen : opening? (c :: (as ++ b :: cs)) = none := by
      rw [← List.cons_append, opening?_append_blank hb, h]
    rw [List.cons_append, complete_char hopen, complete_char h, ih, List.cons_append]
  | placeholder key as h ih =>
    -- the value is whatever it is: what follows it has been completed apart from it
    simp only [List.append_assoc]
    rw [complete_placeholder h, complete_placeholder h, ih, List.append_assoc]

theorem keysOf_blanks_append {w : List Char} (hw : ∀ c ∈ w, isBlank c = true) (cs : List Char) :
    keysOf (w ++ cs) = keysOf cs := by
  induction w with
  | nil => rfl
  | cons b w ih =>
    rw [List.cons_append, keysOf_char (opening?_blank (hw b List.mem_cons_self) _),
      ih fun c hc => hw c (List.mem_cons_of_mem b hc)]

theorem complete_blanks_append {w : List Char} (hw : ∀ c ∈ w, isBlank c = true) (scope : Scope) (cs : List Char) :
    complete scope (w ++ cs) = w ++ complete scope cs := by
  induction w with
  | nil => rfl
  | cons b w ih =>
    rw [List.cons_append, complete_char (opening?_blank (hw b List.mem_cons_self) _),
      ih fun c hc => hw c (List.mem_cons_of_mem b hc), List.cons_append]

/-! ## Lines -/

/-- What keeps two pieces apart: one blank or several, as CR LF are. -/
def IsBlankText (w : String) : Prop := w ≠ "" ∧ ∀ c ∈ w.toList, isBlank c = true

theorem IsBlankText.exists_cons {w : String} (h : IsBlankText w) :
    ∃ b bs, w.toList = b :: bs ∧ isBlank b = true ∧ ∀ c ∈ bs, isBlank c = true := by
  obtain ⟨hne, hblank⟩ := h
  obtain ⟨b, bs, hw⟩ := List.exists_cons_of_ne_nil (mt String.toList_eq_nil_iff.mp hne)
  rw [hw, List.forall_mem_cons] at hblank
  exact ⟨b, bs, hw, hblank⟩

theorem keys_append {w : String} (h : IsBlankText w) (s t : String) : keys (s ++ w ++ t) = keys s ++ keys t := by
  obtain ⟨b, bs, hw, hb, hbs⟩ := h.exists_cons
  simp only [keys, String.toList_append, hw, List.append_assoc, List.cons_append]
  rw [keysOf_append_blank hb, keysOf_blanks_append hbs, List.map_append]

theorem fill_append {w : String} (h : IsBlankText w) (scope : Scope) (s t : String) :
    fill scope (s ++ w ++ t) = fill scope s ++ w ++ fill scope t := by
  obtain ⟨b, bs, hw, hb, hbs⟩ := h.exists_cons
  refine String.toList_inj.mp ?_
  simp only [fill, String.toList_ofList, String.toList_append, hw, List.append_assoc, List.cons_append]
  rw [complete_append_blank hb, complete_blanks_append hbs]

/-- The text of lines, each with what ends it, and of a last line that nothing ends. -/
def textOfLines : List (String × String) → String → String
  | [], last => last
  | (line, ending) :: ls, last => line ++ ending ++ textOfLines ls last

/-- **A text is completed piece by piece.** Where a blank stands in it, the two sides have their own keys and are
    completed each on its own, whatever the values hold; so a text of lines is completed line by line. -/
theorem fill_piece_by_piece (scope : Scope) :
    (∀ (b : Char) (s t : String), isBlank b = true →
      fill scope (s ++ String.singleton b ++ t) = fill scope s ++ String.singleton b ++ fill scope t ∧
        keys (s ++ String.singleton b ++ t) = keys s ++ keys t) ∧
      ∀ (ls : List (String × String)) (last : String), (∀ l ∈ ls, IsBlankText l.2) →
        fill scope (textOfLines ls last) =
          textOfLines (ls.map fun l => (fill scope l.1, l.2)) (fill scope last) := by
  constructor
  · intro b s t hb
    have hw : IsBlankText (String.singleton b) := ⟨by simp, by simpa using hb⟩
    exact ⟨fill_append hw scope s t, keys_append hw s t⟩
  · intro ls last h
    induction ls with
    | nil => rfl
    | cons l ls ih =>
      obtain ⟨hl, hls⟩ := List.forall_mem_cons.mp h
      rw [List.map_cons, textOfLines, textOfLines, fill_append hl, ih hls]

/-- A value that opens a placeholder at the end of its line. -/
theorem fill_piece_by_piece_open_value :
    let s : Scope := .ofList [("A", "___B"), ("B", "x")]
    isBlank '\n' = true ∧ IsBlankText "\r\n" ∧
      fill s "___A___\nB___" = fill s "___A___" ++ "\n" ++ fill s "B___" ∧
      keys "___A___\nB___" = keys "___A___" ++ keys "B___" ∧
      fill s "___A___\r\nB___" = textOfLines [(fill s "___A___", "\r\n")] (fill s "B___") ∧
      fill s "___A___" = "___B" := by
  intro s
  have hbreak : isBlank '\n' = true := by decide
  have hending : IsBlankText "\r\n" := ⟨by decide, List.all_eq_true.mp (by decide)⟩
  obtain ⟨hpieces, hlines⟩ := fill_piece_by_piece s
  obtain ⟨hfill, hkeys⟩ := hpieces '\n' "___A___" "B___" hbreak
  have hall := hlines [("___A___", "\r\n")] "B___" (by simpa using hending)
  exact ⟨hbreak, hending, hfill, hkeys, hall, by decide +kernel⟩

end Stencil.Placeholder
