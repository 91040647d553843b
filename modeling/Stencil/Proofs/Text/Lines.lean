import Mathlib.Data.List.TakeWhile
import Stencil.Text.Lines

/-!
# `Stencil.Proofs.Text.Lines` — texts that are put together from lines

## Contents
- **Trimming.** Blanks around a text are trimmed away; a text that starts and ends with something else
  is left as it is.
- **Documents.** `Document ls text`: the text is made of these lines and of blank ones between them, each
  ended by any line break, the last one perhaps by none. Cutting it gives the lines back
  (`spoken_lines_of_document`).
- **Texts one after the other.** A line break between two texts keeps their lines apart, whatever the first
  one ends with (`lines_append_newline`).
- **Other line breaks.** The lines are the same if CR LF and CR are written as LF (`lines_normalizeNewlines`), which
  can be done part by part. Lines that are joined are cut again, whatever break they are joined by
  (`lines_intercalate`).
-/

namespace Stencil.Text

/-! ## Trimming -/

theorem strip_append_left {as : List Char} (h : ∀ c ∈ as, isBlank c = true) (cs : List Char) :
    strip (as ++ cs) = strip cs := by
  rw [strip, strip, trim, trim, List.dropWhile_append_of_pos h]

theorem trimEnd_append_right {p : Char → Bool} {bs : List Char} (h : ∀ c ∈ bs, p c = true) (cs : List Char) :
    trimEnd p (cs ++ bs) = trimEnd p cs := by
  rw [trimEnd, trimEnd, List.reverse_append, List.dropWhile_append_of_pos fun c hc => h c (List.mem_reverse.mp hc)]

theorem strip_append_right {bs : List Char} (h : ∀ c ∈ bs, isBlank c = true) (cs : List Char) :
    strip (cs ++ bs) = strip cs := by
  rw [strip, strip, trim, trim, List.dropWhile_append]
  split
  · next hcs =>
    have hnil : cs.dropWhile isBlank = [] := by simpa using hcs
    rw [List.dropWhile_eq_nil_iff.mpr h, hnil]
  · exact trimEnd_append_right h _

/-- A text is its own trimmed form exactly if it neither starts nor ends with a blank. -/
theorem strip_eq_self_iff {cs : List Char} :
    strip cs = cs ↔
      (∀ c, cs.head? = some c → isBlank c = false) ∧ ∀ c, cs.getLast? = some c → isBlank c = false := by
  constructor
  · -- with a blank at an end, trimming would make the text shorter
    intro h
    refine ⟨fun c hc => ?_, fun c hc => ?_⟩
    · obtain ⟨t, rfl⟩ := List.head?_eq_some_iff.mp hc
      by_contra hb
      have hc : ∀ d ∈ [c], isBlank d = true := by simpa using hb
      have hs := strip_append_left hc t
      have hle : (strip t).length ≤ t.length := length_trim_le isBlank t
      rw [← hs, List.singleton_append, h, List.length_cons] at hle
      omega
    · obtain ⟨t, rfl⟩ := List.getLast?_eq_some_iff.mp hc
      by_contra hb
      have hc : ∀ d ∈ [c], isBlank d = true := by simpa using hb
      have hs := strip_append_right hc t
      have hle : (strip t).length ≤ t.length := length_trim_le isBlank t
      rw [← hs, h, List.length_append, List.length_singleton] at hle
      omega
  · rintro ⟨hhead, hlast⟩
    have hd : cs.dropWhile isBlank = cs := by
      cases cs with
      | nil => rfl
      | cons c cs => exact List.dropWhile_cons_of_neg (by simp [hhead c rfl])
    have he : cs.reverse.dropWhile isBlank = cs.reverse := by
      cases hr : cs.reverse with
      | nil => rfl
      | cons c rs =>
        have hc : cs.getLast? = some c := by rw [← List.head?_reverse, hr]; rfl
        exact List.dropWhile_cons_of_neg (by simp [hlast c hc])
    rw [strip, trim, trimEnd, hd, he, List.reverse_reverse]

/-- What starts with something that is no blank is not blank. -/
theorem strip_cons_ne_nil {c : Char} (hc : isBlank c = false) (cs : List Char) : strip (c :: cs) ≠ [] := by
  intro h
  rw [strip, trim, trimEnd, List.dropWhile_cons_of_neg (by simp [hc]), List.reverse_eq_nil_iff,
    List.dropWhile_eq_nil_iff] at h
  have hb := h c (by simp)
  rw [hc] at hb
  exact absurd hb (by decide)

/-! ## Documents -/

/-- The characters that end one line. -/
inductive IsBreak : List Char → Prop
  | single {c : Char} (h : isLineBreak c = true) : IsBreak [c]
  | pair : IsBreak ['\r', '\n']

/-- A line that says something: it is not blank and holds no line break. -/
structure IsLine (l : List Char) : Prop where
  /-- It holds no line break. -/
  unbroken : ∀ c ∈ l, isLineBreak c = false
  /-- It is not blank. -/
  strip_ne_nil : strip l ≠ []

/-- A blank line, which may be empty. -/
structure IsBlankLine (l : List Char) : Prop where
  /-- It holds no line break. -/
  unbroken : ∀ c ∈ l, isLineBreak c = false
  /-- It is blank. -/
  strip_eq_nil : strip l = []

/-- A text that is made of lines, with blank lines anywhere between them: each line is ended by a line
    break, the last one perhaps by nothing. -/
inductive Document : List (List Char) → List Char → Prop
  | nil {w : List Char} (hw : IsBlankLine w) : Document [] w
  | last (l : List Char) : Document [l] l
  | line (l : List Char) {br text : List Char} {ls : List (List Char)} (hbr : IsBreak br)
      (h : Document ls text) : Document (l :: ls) (l ++ (br ++ text))
  | blank {w br text : List Char} {ls : List (List Char)} (hw : IsBlankLine w) (hbr : IsBreak br)
      (h : Document ls text) : Document ls (w ++ (br ++ text))

/-- The lines that are not blank. -/
def spoken (ls : List (List Char)) : List (List Char) := ls.filter fun l => !(strip l).isEmpty

@[simp] theorem spoken_cons_of_isLine {l : List Char} (h : IsLine l) (ls : List (List Char)) :
    spoken (l :: ls) = l :: spoken ls := by
  rw [spoken, List.filter_cons_of_pos (by simpa using h.strip_ne_nil)]
  rfl

@[simp] theorem spoken_cons_of_isBlankLine {l : List Char} (h : IsBlankLine l) (ls : List (List Char)) :
    spoken (l :: ls) = spoken ls := by
  rw [spoken, List.filter_cons_of_neg (by simp [h.strip_eq_nil])]
  rfl

theorem lines_cons_of_not_isLineBreak {c : Char} (h : isLineBreak c = false) (cs : List Char) :
    lines (c :: cs) = consLine c (lines cs) := by
  have hr : c ≠ '\r' := by rintro rfl; exact absurd h (by decide)
  rw [lines, h]
  · rfl
  · exact fun _ hc _ => hr hc

theorem lines_append_cons {l : List Char} (hl : ∀ c ∈ l, isLineBreak c = false) {cs m : List Char}
    {ls : List (List Char)} (h : lines cs = m :: ls) : lines (l ++ cs) = (l ++ m) :: ls := by
  induction l with
  | nil => exact h
  | cons c l ih =>
    rw [List.cons_append, lines_cons_of_not_isLineBreak (hl c List.mem_cons_self),
      ih fun d hd => hl d (List.mem_cons_of_mem c hd)]
    rfl

/-- A text without line breaks is one line, or none if it is empty. -/
theorem lines_of_unbroken {l : List Char} (hl : ∀ c ∈ l, isLineBreak c = false) (hne : l ≠ []) :
    lines l = [l] := by
  obtain ⟨as, c, rfl⟩ : ∃ as c, l = as ++ [c] := ⟨_, _, (List.dropLast_concat_getLast hne).symm⟩
  have hc : lines [c] = [[c]] := by
    rw [lines_cons_of_not_isLineBreak (hl c (by simp)), lines_nil]
    rfl
  exact lines_append_cons (fun d hd => hl d (List.mem_append_left _ hd)) hc

theorem isBlankLine_nil : IsBlankLine [] := ⟨by simp, rfl⟩

/-- A character in front of a text, unless it is the CR of a CR LF. -/
theorem lines_cons {c : Char} {cs : List Char} (h : c = '\r' → cs.head? ≠ some '\n') :
    lines (c :: cs) = if isLineBreak c then [] :: lines cs else consLine c (lines cs) := by
  rw [lines]
  rintro t hc rfl
  exact h hc rfl

theorem lines_newline_cons (cs : List Char) : lines ('\n' :: cs) = [] :: lines cs := by
  rw [lines_cons (fun h => absurd h (by decide)), if_pos (by decide)]

/-- A line break ends the line before it, if it is not a CR that a LF follows. -/
theorem lines_break_of_apart {br : List Char} (h : IsBreak br) {cs : List Char}
    (hapart : br = ['\r'] → cs.head? ≠ some '\n') : lines (br ++ cs) = [] :: lines cs := by
  cases h with
  | pair => rw [List.cons_append, List.singleton_append, lines]
  | @single c hc =>
    rw [List.singleton_append, lines_cons fun hr => hapart (by rw [hr]), if_pos hc]

/-- A line break ends the line before it. If it is a CR and the next line is empty, the break behind that one may
    be the LF that goes with it; then only an empty line is lost. -/
theorem lines_break {br : List Char} (h : IsBreak br) (cs : List Char) :
    ∃ ls, lines (br ++ cs) = [] :: ls ∧ spoken ls = spoken (lines cs) := by
  by_cases hapart : br = ['\r'] → cs.head? ≠ some '\n'
  · exact ⟨lines cs, lines_break_of_apart h hapart, rfl⟩
  · rw [Classical.not_imp, not_not, List.head?_eq_some_iff] at hapart
    obtain ⟨rfl, t, rfl⟩ := hapart
    refine ⟨lines t, by rw [List.singleton_append, lines], ?_⟩
    rw [lines_newline_cons, spoken_cons_of_isBlankLine isBlankLine_nil]

/-- A line with a break behind it is cut off. -/
theorem spoken_lines_append {l br : List Char} (hl : ∀ c ∈ l, isLineBreak c = false) (hbr : IsBreak br)
    (cs : List Char) : spoken (lines (l ++ (br ++ cs))) = spoken (l :: lines cs) := by
  obtain ⟨ls, hcut, hls⟩ := lines_break hbr cs
  rw [lines_append_cons hl hcut, List.append_nil]
  simp only [spoken, List.filter_cons] at hls ⊢
  rw [hls]

/-- **A document is cut into its lines**, apart from the blank ones. -/
theorem spoken_lines_of_document {ls : List (List Char)} {text : List Char} (h : Document ls text)
    (hls : ∀ l ∈ ls, IsLine l) : spoken (lines text) = ls := by
  induction h with
  | @nil w hw =>
    cases w with
    | nil => rw [lines_nil]; rfl
    | cons c w => rw [lines_of_unbroken hw.unbroken (List.cons_ne_nil c w), spoken_cons_of_isBlankLine hw]; rfl
  | last l =>
    have hl := hls l List.mem_cons_self
    have hne : l ≠ [] := by rintro rfl; exact hl.strip_ne_nil rfl
    rw [lines_of_unbroken hl.unbroken hne, spoken_cons_of_isLine hl]
    rfl
  | line l hbr h ih =>
    have hl := hls l List.mem_cons_self
    rw [spoken_lines_append hl.unbroken hbr, spoken_cons_of_isLine hl,
      ih fun m hm => hls m (List.mem_cons_of_mem l hm)]
  | blank hw hbr h ih => rw [spoken_lines_append hw.unbroken hbr, spoken_cons_of_isBlankLine hw, ih hls]

/-! ## Texts one after the other -/

theorem lines_ne_nil (c : Char) (cs : List Char) : lines (c :: cs) ≠ [] := by
  have hcons : ∀ ls, consLine c ls ≠ [] := fun ls => by cases ls <;> simp [consLine]
  by_cases h : c = '\r' → cs.head? ≠ some '\n'
  · rw [lines_cons h]
    split
    · exact List.cons_ne_nil _ _
    · exact hcons _
  · rw [Classical.not_imp, not_not, List.head?_eq_some_iff] at h
    obtain ⟨rfl, t, rfl⟩ := h
    rw [lines]
    exact List.cons_ne_nil _ _

theorem consLine_append {ls : List (List Char)} (h : ls ≠ []) (c : Char) (ms : List (List Char)) :
    consLine c (ls ++ ms) = consLine c ls ++ ms := by
  cases ls with
  | nil => exact absurd rfl h
  | cons l ls => rfl

/-- **A line break behind a text ends its last line**, or makes an empty line if that line has ended. -/
theorem lines_append_newline (as bs : List Char) :
    lines (as ++ '\n' :: bs) = lines as ++ lines bs ∨ lines (as ++ '\n' :: bs) = lines as ++ [] :: lines bs := by
  fun_induction lines as with
  | case1 => exact .inr (lines_newline_cons bs)
  | case2 as ih =>
    rw [List.cons_append, List.cons_append, lines]
    exact ih.imp (congrArg ([] :: ·)) (congrArg ([] :: ·))
  | case3 c as hpair hc ih =>
    cases as with
    | nil =>
      -- a CR takes the line break with it
      by_cases hr : c = '\r'
      · subst hr
        rw [List.singleton_append, lines]
        exact .inl rfl
      · rw [List.singleton_append, lines_cons fun h => absurd h hr, if_pos hc, lines_newline_cons, lines_nil]
        exact .inr rfl
    | cons d as =>
      rw [List.cons_append, lines_cons (fun h => by simpa using fun hd => hpair as h (by rw [hd])), if_pos hc]
      exact ih.imp (congrArg ([] :: ·)) (congrArg ([] :: ·))
  | case4 c as hpair hc ih =>
    cases as with
    | nil =>
      rw [List.singleton_append, lines_cons_of_not_isLineBreak (by simpa using hc), lines_newline_cons, lines_nil]
      exact .inl rfl
    | cons d as =>
      rw [List.cons_append, lines_cons_of_not_isLineBreak (by simpa using hc)]
      refine ih.imp (fun h => ?_) (fun h => ?_)
      · rw [h, consLine_append (lines_ne_nil d as)]
      · rw [h, consLine_append (lines_ne_nil d as)]

/-! ## Other line breaks -/

theorem normalizeNewlines_cons {c : Char} (hc : c ≠ '\r') (cs : List Char) :
    normalizeNewlines (c :: cs) = c :: normalizeNewlines cs := by
  rw [normalizeNewlines, if_neg hc]
  exact fun _ h => absurd h hc

/-- What is joined is normalised part by part, unless the seam is inside a CR LF. -/
theorem normalizeNewlines_append {as bs : List Char} (h : as.getLast? = some '\r' → bs.head? ≠ some '\n') :
    normalizeNewlines (as ++ bs) = normalizeNewlines as ++ normalizeNewlines bs := by
  fun_induction normalizeNewlines as with
  | case1 => rfl
  | case2 cs ih =>
    rw [List.cons_append, List.cons_append, normalizeNewlines, ih fun hr => h ?_, List.cons_append]
    rw [List.getLast?_cons, List.getLast?_cons, hr]
    rfl
  | case3 c cs hpair ih =>
    rw [List.cons_append, normalizeNewlines, ih fun hr => h (by rw [List.getLast?_cons, hr]; rfl), List.cons_append]
    rintro t rfl ht
    cases cs with
    | nil => exact h rfl (by rw [← List.nil_append bs, ht]; rfl)
    | cons d cs => exact hpair cs rfl (by rw [(List.cons.inj ht).1])

theorem normalizeNewlines_append_of_head? (as : List Char) {bs : List Char} (h : bs.head? ≠ some '\n') :
    normalizeNewlines (as ++ bs) = normalizeNewlines as ++ normalizeNewlines bs :=
  normalizeNewlines_append fun _ => h

/-- What holds no CR stays as it is. -/
theorem normalizeNewlines_append_of_not_mem {as : List Char} (h : '\r' ∉ as) (bs : List Char) :
    normalizeNewlines (as ++ bs) = as ++ normalizeNewlines bs := by
  rw [normalizeNewlines_append fun hr => absurd (List.mem_of_getLast? hr) h, normalizeNewlines_eq_self h]

theorem mem_normalizeNewlines {c : Char} {cs : List Char} (h : c ∈ normalizeNewlines cs) : c ∈ cs ∨ c = '\n' := by
  fun_induction normalizeNewlines cs with
  | case1 => cases h
  | case2 cs ih =>
    rcases List.mem_cons.mp h with h | h
    · exact .inr h
    · exact (ih h).imp_left fun hc => List.mem_cons_of_mem _ (List.mem_cons_of_mem _ hc)
  | case3 d cs hpair ih =>
    rcases List.mem_cons.mp h with h | h
    · split at h
      · exact .inr h
      · exact .inl (h ▸ List.mem_cons_self)
    · exact (ih h).imp_left (List.mem_cons_of_mem d)

/-- **The lines are those of the text with all its line breaks as LF.** -/
theorem lines_normalizeNewlines (cs : List Char) : lines (normalizeNewlines cs) = lines cs := by
  fun_induction normalizeNewlines cs with
  | case1 => rfl
  | case2 cs ih => rw [lines_newline_cons, ih, lines]
  | case3 c cs hpair ih =>
    by_cases hr : c = '\r'
    · have hnext : cs.head? ≠ some '\n' := by
        intro hn
        obtain ⟨t, rfl⟩ := List.head?_eq_some_iff.mp hn
        exact hpair t hr rfl
      rw [if_pos hr, lines_newline_cons, ih, lines_cons fun _ => hnext, hr, if_pos (by decide)]
    · rw [if_neg hr, lines_cons fun h => absurd h hr, lines_cons fun h => absurd h hr, ih]

/-- What starts neither in its first line nor in a separator does not start the joined text. -/
theorem head?_intercalate_ne {br : List Char} {x : Char} (hbr : br.head? ≠ some x) (hne : br ≠ [])
    {ls : List (List Char)} (hls : ∀ l ∈ ls, x ∉ l) : (br.intercalate ls).head? ≠ some x := by
  have hfirst : ∀ l ∈ ls, l.head? ≠ some x := fun l hl hx => hls l hl (List.mem_of_mem_head? hx)
  cases ls with
  | nil => simp
  | cons l ls =>
    have hl := hfirst l List.mem_cons_self
    cases ls with
    | nil => simpa using hl
    | cons m ls =>
      obtain ⟨d, ds, rfl⟩ := List.exists_cons_of_ne_nil hne
      rw [List.intercalate_cons_cons]
      cases l with
      | nil => exact hbr
      | cons c l => exact hl

/-- **Lines that are joined by a line break are cut again**, whichever break it is. An empty line at the end is not
    seen. -/
theorem lines_intercalate {br : List Char} (hbr : IsBreak br) {ls : List (List Char)}
    (hls : ∀ l ∈ ls, ∀ c ∈ l, isLineBreak c = false) :
    lines (br.intercalate ls) = ls ∨ lines (br.intercalate ls) ++ [[]] = ls := by
  induction ls with
  | nil => exact .inl lines_nil
  | cons l ls ih =>
    have hl := hls l List.mem_cons_self
    have hrest : ∀ m ∈ ls, ∀ c ∈ m, isLineBreak c = false := fun m hm => hls m (List.mem_cons_of_mem l hm)
    cases ls with
    | nil =>
      rw [List.intercalate_singleton]
      by_cases hne : l = []
      · exact .inr (by rw [hne, lines_nil]; rfl)
      · exact .inl (lines_of_unbroken hl hne)
    | cons m ls =>
      -- a CR is followed by a CR or by a line, and neither starts with a LF
      have hapart : br = ['\r'] → (br.intercalate (m :: ls)).head? ≠ some '\n' := by
        rintro rfl
        refine head?_intercalate_ne (by decide) (by decide) fun k hk hn => ?_
        have := hrest k hk '\n' hn
        exact absurd this (by decide)
      have hcut : lines (br.intercalate (l :: m :: ls)) = l :: lines (br.intercalate (m :: ls)) := by
        rw [List.intercalate_cons_cons, List.append_assoc,
          lines_append_cons hl (lines_break_of_apart hbr hapart), List.append_nil]
      rw [hcut, List.cons_append]
      exact (ih hrest).imp (congrArg (l :: ·)) (congrArg (l :: ·))

end Stencil.Text
