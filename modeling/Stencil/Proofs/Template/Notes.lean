import Mathlib.Data.List.Basic
import Stencil.Template.Note

/-!
# `Stencil.Proofs.Template.Notes` — what is left of a name

`eraseFrom` counts characters that it passes over. A reader would cut the name into pieces instead: a gap up to the
first opening parenthesis that is closed on its line, the note from there to the first closing one, and so on. What is
left is the gaps. Taking a note out brings text together that was apart, but no note begins at such a seam.

## Contents
- **Lines.** `IsClosable behind`: a closing parenthesis comes before the end of the line. `IsOpen before`: an opening
  one stands in the last line.
- **Notes.** `IsNote`; no note begins in an `IsGap`, whatever it is that follows it. `length?` counts the rest of a note
  (`exists_body_of_length?`), if there is one (`length?_eq_none_iff`).
- **Steps.** A name is empty, or begins with a character that is kept, or with a note (`inductionOn`); `eraseFrom` has
  an equation for each.
- **Cuts.** `Cuts` are the pieces that a reader makes of a name. Every name is cut in one way (`exists_cuts`,
  `Cuts.unique`), and what is left are the gaps (`Cuts.eraseFrom_eq`).
- **Seams.** What is left is closable only if it was (`IsClosable.of_eraseFrom`), so all of it is a gap; two pieces of a
  name are cleaned apart if no note reaches over the seam (`eraseFrom_append`).
- **Clean names.** `Cleaned` says what is left of a name, and `cleaned_erase` that this is what is left.
-/

namespace Stencil.Note

open Text

variable {α : Type} (seen : α → Char)

/-! ## Lines -/

/-- A closing parenthesis comes before the end of the line. -/
def IsClosable (behind : List α) : Prop :=
  ∃ body c rest, behind = body ++ c :: rest ∧ seen c = ')' ∧ ∀ d ∈ body, seen d ≠ '\n'

/-- An opening parenthesis stands in the last line. -/
def IsOpen (before : List α) : Prop :=
  ∃ front o body, before = front ++ o :: body ∧ seen o = '(' ∧ ∀ d ∈ body, seen d ≠ '\n'

variable {seen}

theorem not_isClosable_nil : ¬ IsClosable seen [] := by
  rintro ⟨body, c, rest, h, -, -⟩
  cases body <;> cases h

theorem isClosable_cons {c : α} {cs : List α} :
    IsClosable seen (c :: cs) ↔ seen c = ')' ∨ seen c ≠ '\n' ∧ IsClosable seen cs := by
  constructor
  · rintro ⟨body, d, rest, h, hd, hbody⟩
    cases body with
    | nil =>
      obtain ⟨rfl, -⟩ := List.cons.inj h
      exact Or.inl hd
    | cons b body =>
      obtain ⟨rfl, hcs⟩ := List.cons.inj h
      rw [List.forall_mem_cons] at hbody
      exact Or.inr ⟨hbody.1, body, d, rest, hcs, hd, hbody.2⟩
  · rintro (hc | ⟨hc, body, d, rest, rfl, hd, hbody⟩)
    · exact ⟨[], c, cs, rfl, hc, List.forall_mem_nil _⟩
    · exact ⟨c :: body, d, rest, rfl, hd, List.forall_mem_cons.mpr ⟨hc, hbody⟩⟩

theorem isClosable_append {front behind : List α} :
    IsClosable seen (front ++ behind) ↔
      IsClosable seen front ∨ (∀ d ∈ front, seen d ≠ '\n') ∧ IsClosable seen behind := by
  induction front with
  | nil => simp [not_isClosable_nil]
  | cons c front ih =>
    rw [List.cons_append, isClosable_cons, isClosable_cons, ih, List.forall_mem_cons]
    by_cases hc : seen c = ')'
    · simp [hc]
    · simp only [hc, false_or, and_or_left, and_assoc]

theorem length?_eq_none_iff {cs : List α} : length? seen cs = none ↔ ¬ IsClosable seen cs := by
  induction cs with
  | nil => simp [length?, not_isClosable_nil]
  | cons c cs ih =>
    rw [length?, isClosable_cons]
    by_cases hc : seen c = ')'
    · simp [hc]
    · by_cases hline : seen c = '\n'
      · simp [hline]
      · simp [hc, hline, ih]

variable (seen)

/-! ## Notes -/

/-- The body of a note: there is no closing parenthesis in it, and the line does not end. -/
def IsBody (body : List α) : Prop := ∀ d ∈ body, seen d ≠ ')' ∧ seen d ≠ '\n'

/-- A note is a body in parentheses. -/
inductive IsNote : List α → Prop where
  /-- An opening parenthesis, the body and a closing one. -/
  | mk {o c : α} {body : List α} (opened : seen o = '(') (inside : IsBody seen body) (closed : seen c = ')') :
      IsNote (o :: (body ++ [c]))

/-- No opening parenthesis of a gap is closed on its line, where `behind` follows the gap. -/
def IsGap (gap behind : List α) : Prop :=
  ∀ before o after, gap = before ++ o :: after → seen o = '(' → ¬ IsClosable seen (after ++ behind)

variable {seen}

theorem length?_append {body : List α} (hbody : IsBody seen body) {c : α} (hc : seen c = ')') (rest : List α) :
    length? seen (body ++ c :: rest) = some (body.length + 1) := by
  induction body with
  | nil =>
    rw [List.nil_append, length?, if_pos hc]
    rfl
  | cons b body ih =>
    obtain ⟨hb, hbody⟩ := List.forall_mem_cons.mp hbody
    rw [List.cons_append, length?, if_neg hb.1, if_neg hb.2, ih hbody]
    rfl

/-- **What `length?` counts is a body and its closing parenthesis.** -/
theorem exists_body_of_length? {cs : List α} {n : Nat} (h : length? seen cs = some n) :
    ∃ body c, IsBody seen body ∧ seen c = ')' ∧ n = body.length + 1 ∧ cs = body ++ c :: cs.drop n := by
  fun_induction length? seen cs generalizing n with
  | case1 => cases h
  | case2 c cs hc =>
    cases h
    exact ⟨[], c, List.forall_mem_nil _, hc, rfl, rfl⟩
  | case3 c cs hc hline => cases h
  | case4 c cs hc hline ih =>
    obtain ⟨m, hm, rfl⟩ := Option.map_eq_some_iff.mp h
    obtain ⟨body, d, hbody, hd, rfl, hcs⟩ := ih hm
    exact ⟨c :: body, d, List.forall_mem_cons.mpr ⟨⟨hc, hline⟩, hbody⟩, hd, rfl, congrArg (c :: ·) hcs⟩

theorem IsBody.isClosable {body : List α} (hbody : IsBody seen body) {c : α} (hc : seen c = ')') (rest : List α) :
    IsClosable seen (body ++ [c] ++ rest) :=
  ⟨body, c, rest, by simp, hc, fun d hd => (hbody d hd).2⟩

theorem IsNote.isClosable {note : List α} (h : IsNote seen note) (rest : List α) : IsClosable seen (note ++ rest) := by
  obtain @⟨o, c, body, ho, hbody, hc⟩ := h
  have hline : seen o ≠ '\n' := by
    rw [ho]
    decide
  exact isClosable_cons.mpr (Or.inr ⟨hline, hbody.isClosable hc rest⟩)

/-- A note ends where it ends, whatever follows it. -/
theorem IsNote.append_inj {note note' rest rest' : List α} (h : IsNote seen note) (h' : IsNote seen note')
    (heq : note ++ rest = note' ++ rest') : note = note' ∧ rest = rest' := by
  apply List.append_inj heq
  obtain @⟨o, c, body, -, hbody, hc⟩ := h
  obtain @⟨o', c', body', -, hbody', hc'⟩ := h'
  have htail : body ++ c :: rest = body' ++ c' :: rest' := by simpa using (List.cons.inj heq).2
  have hlength := length?_append hbody hc rest
  rw [htail, length?_append hbody' hc', Option.some_inj] at hlength
  simp only [List.length_cons, List.length_append, List.length_nil]
  omega

theorem isGap_nil (behind : List α) : IsGap seen [] behind := by
  intro before o after h
  cases before <;> cases h

theorem isGap_cons {c : α} {gap behind : List α} :
    IsGap seen (c :: gap) behind ↔ (seen c = '(' → ¬ IsClosable seen (gap ++ behind)) ∧ IsGap seen gap behind := by
  constructor
  · intro h
    exact ⟨h [] c gap rfl, fun before o after hgap => h (c :: before) o after (congrArg (c :: ·) hgap)⟩
  · rintro ⟨hc, hgap⟩ before o after h ho
    cases before with
    | nil =>
      obtain ⟨rfl, rfl⟩ := List.cons.inj h
      exact hc ho
    | cons b before => exact hgap before o after (List.cons.inj h).2 ho

instance : DecidablePred (IsClosable seen) := fun cs =>
  decidable_of_iff (length? seen cs ≠ none) (not_congr length?_eq_none_iff |>.trans not_not)

instance : DecidablePred (IsBody seen) := fun body => List.decidableBAll (fun d => seen d ≠ ')' ∧ seen d ≠ '\n') body

instance decidableIsGap : (gap behind : List α) → Decidable (IsGap seen gap behind)
  | [], behind => isTrue (isGap_nil behind)
  | _ :: gap, behind =>
    have := decidableIsGap gap behind
    decidable_of_iff _ isGap_cons.symm

/-! ## Steps -/

theorem eraseFrom_eq_drop (n : Nat) (cs : List α) : eraseFrom seen n cs = eraseFrom seen 0 (cs.drop n) := by
  induction cs generalizing n with
  | nil => rw [List.drop_nil, eraseFrom, eraseFrom]
  | cons c cs ih =>
    cases n with
    | zero => rfl
    | succ n => rw [eraseFrom, ih, List.drop_succ_cons]

theorem eraseFrom_cons {c : α} {cs : List α} (h : seen c = '(' → ¬ IsClosable seen cs) :
    eraseFrom seen 0 (c :: cs) = c :: eraseFrom seen 0 cs := by
  rw [eraseFrom]
  by_cases hc : seen c = '('
  · rw [if_pos hc, length?_eq_none_iff.mpr (h hc)]
  · rw [if_neg hc]

theorem eraseFrom_note {note : List α} (h : IsNote seen note) (rest : List α) :
    eraseFrom seen 0 (note ++ rest) = eraseFrom seen 0 rest := by
  obtain @⟨o, c, body, ho, hbody, hc⟩ := h
  have hlength : length? seen (body ++ [c] ++ rest) = some (body ++ [c]).length := by
    rw [List.append_assoc, List.singleton_append, length?_append hbody hc, List.length_append]
    rfl
  rw [List.cons_append, eraseFrom, if_pos ho, hlength]
  dsimp only
  rw [eraseFrom_eq_drop, List.drop_left]

/-- **A name is empty, or begins with a character that is kept, or with a note.** -/
@[elab_as_elim]
theorem inductionOn (seen : α → Char) {motive : List α → Prop} (name : List α) (nil : motive [])
    (kept : ∀ c cs, (seen c = '(' → ¬ IsClosable seen cs) → motive cs → motive (c :: cs))
    (note : ∀ note rest, IsNote seen note → motive rest → motive (note ++ rest)) : motive name := by
  -- the recursion of `eraseFrom`, which has passed over the characters that it skips
  suffices hall : ∀ n, motive (name.drop n) from hall 0
  intro n
  fun_induction eraseFrom seen n name with
  | case1 n => rwa [List.drop_nil]
  | case2 n c cs ih => exact ih
  | case3 c cs ho n hn ih =>
    obtain ⟨body, d, hbody, hd, rfl, hcs⟩ := exists_body_of_length? hn
    have hname : c :: cs = (c :: (body ++ [d])) ++ cs.drop (body.length + 1) := by
      rw [List.cons_append, List.append_assoc, List.singleton_append, ← hcs]
    rw [List.drop_zero, hname]
    exact note _ _ ⟨ho, hbody, hd⟩ ih
  | case4 c cs ho hn ih => exact kept c cs (fun _ => length?_eq_none_iff.mp hn) ih
  | case5 c cs ho ih => exact kept c cs (fun h => absurd h ho) ih

/-! ## Cuts -/

variable (seen) in
/-- The pieces that a reader makes of a name: gaps, each with the note that was found behind it, and a last gap. -/
inductive Cuts : List α → List (List α × List α) → List α → Prop where
  /-- No note is left. -/
  | last {gap : List α} (free : IsGap seen gap []) : Cuts gap [] gap
  /-- A note is cut out from the first place where one begins. -/
  | note {gap note rest last : List α} {cuts : List (List α × List α)} (free : IsGap seen gap (note ++ rest))
      (isNote : IsNote seen note) (more : Cuts rest cuts last) : Cuts (gap ++ (note ++ rest)) ((gap, note) :: cuts) last

/-- **Every name can be cut.** -/
theorem exists_cuts (seen : α → Char) (name : List α) : ∃ cuts last, Cuts seen name cuts last := by
  induction name using inductionOn seen with
  | nil => exact ⟨[], [], .last (isGap_nil [])⟩
  | kept c cs hc ih =>
    -- the character goes to the gap in front
    obtain ⟨cuts, last, hcuts⟩ := ih
    cases hcuts with
    | last free =>
      rw [← List.append_nil cs] at hc
      exact ⟨[], c :: cs, .last (isGap_cons.mpr ⟨hc, free⟩)⟩
    | @note gap note rest _ cuts free isNote more =>
      exact ⟨(c :: gap, note) :: cuts, last, .note (isGap_cons.mpr ⟨hc, free⟩) isNote more⟩
  | note note rest isNote ih =>
    obtain ⟨cuts, last, hcuts⟩ := ih
    exact ⟨([], note) :: cuts, last, .note (isGap_nil _) isNote hcuts⟩

/-- A gap does not reach beyond the place where a note begins. -/
theorem IsGap.length_le {gap gap' note rest behind : List α} (h : IsGap seen gap' behind) (isNote : IsNote seen note)
    (heq : gap ++ (note ++ rest) = gap' ++ behind) : gap'.length ≤ gap.length := by
  by_contra hlt
  obtain ⟨more, rfl, hmore⟩ | ⟨more, rfl, -⟩ := List.append_eq_append_iff.mp heq
  · obtain @⟨o, c, body, ho, hbody, hc⟩ := isNote
    cases more with
    | nil => simp at hlt
    | cons d more =>
      obtain ⟨rfl, htail⟩ := List.cons.inj hmore
      have hclosable := hbody.isClosable hc rest
      rw [show body ++ [c] ++ rest = more ++ behind from htail] at hclosable
      exact h gap o more rfl ho hclosable
  · simp at hlt

/-- No note lies in a gap. -/
theorem IsNote.not_isGap {note : List α} (h : IsNote seen note) (gap rest behind : List α) :
    ¬ IsGap seen (gap ++ (note ++ rest)) behind := by
  intro hgap
  obtain @⟨o, c, body, ho, hbody, hc⟩ := h
  apply hgap gap o (body ++ [c] ++ rest) rfl ho
  rw [List.append_assoc]
  exact hbody.isClosable hc (rest ++ behind)

/-- **A name is cut in one way only**: each gap ends where a note begins, and cannot go on beyond it. -/
theorem Cuts.unique {name last last' : List α} {cuts cuts' : List (List α × List α)} (h : Cuts seen name cuts last)
    (h' : Cuts seen name cuts' last') : cuts = cuts' ∧ last = last' := by
  induction h generalizing cuts' last' with
  | @last gap free =>
    cases h' with
    | last => exact ⟨rfl, rfl⟩
    | note _ isNote' => exact absurd free (isNote'.not_isGap _ _ _)
  | @note gap note rest last cuts free isNote more ih =>
    generalize hname : gap ++ (note ++ rest) = name at h'
    cases h' with
    | last free' =>
      rw [← hname] at free'
      exact absurd free' (isNote.not_isGap _ _ _)
    | @note gap' note' rest' _ cuts' free' isNote' more' =>
      -- neither gap reaches beyond the place where the other one ends
      have hlength : gap.length = gap'.length :=
        Nat.le_antisymm (free.length_le isNote' hname.symm) (free'.length_le isNote hname)
      obtain ⟨rfl, htail⟩ := List.append_inj hname hlength
      obtain ⟨rfl, rfl⟩ := isNote.append_inj isNote' htail
      obtain ⟨rfl, rfl⟩ := ih more'
      exact ⟨rfl, rfl⟩

theorem Cuts.name_eq {name last : List α} {cuts : List (List α × List α)} (h : Cuts seen name cuts last) :
    name = cuts.flatMap (fun p => p.1 ++ p.2) ++ last := by
  induction h with
  | last => rfl
  | note free isNote more ih => simp [← ih]

theorem eraseFrom_gap {gap behind : List α} (h : IsGap seen gap behind) :
    eraseFrom seen 0 (gap ++ behind) = gap ++ eraseFrom seen 0 behind := by
  induction gap with
  | nil => rfl
  | cons c gap ih =>
    obtain ⟨hc, hgap⟩ := isGap_cons.mp h
    rw [List.cons_append, eraseFrom_cons hc, ih hgap, List.cons_append]

theorem eraseFrom_of_isGap {name : List α} (h : IsGap seen name []) : eraseFrom seen 0 name = name := by
  have hgap := eraseFrom_gap h
  rwa [eraseFrom, List.append_nil] at hgap

/-- **What is left are the gaps**, whichever way the name is cut. -/
theorem Cuts.eraseFrom_eq {name last : List α} {cuts : List (List α × List α)} (h : Cuts seen name cuts last) :
    eraseFrom seen 0 name = cuts.flatMap Prod.fst ++ last := by
  induction h with
  | last free => exact eraseFrom_of_isGap free
  | note free isNote more ih => rw [eraseFrom_gap free, eraseFrom_note isNote, ih, List.flatMap_cons, List.append_assoc]

/-! ## Seams -/

/-- **What is left is closable only if it was**, so that an opening parenthesis that is left behind never comes before
    a closing one. -/
theorem IsClosable.of_eraseFrom {cs : List α} (h : IsClosable seen (eraseFrom seen 0 cs)) : IsClosable seen cs := by
  induction cs using inductionOn seen with
  | nil => exact h
  | kept c cs hc ih =>
    rw [eraseFrom_cons hc, isClosable_cons] at h
    exact isClosable_cons.mpr (h.imp id fun hcs => ⟨hcs.1, ih hcs.2⟩)
  | note note rest isNote ih => exact isNote.isClosable rest

theorem isGap_eraseFrom (seen : α → Char) (name : List α) : IsGap seen (eraseFrom seen 0 name) [] := by
  induction name using inductionOn seen with
  | nil => exact isGap_nil []
  | kept c cs hc ih =>
    rw [eraseFrom_cons hc, isGap_cons, List.append_nil]
    exact ⟨fun ho hclosable => hc ho hclosable.of_eraseFrom, ih⟩
  | note note rest isNote ih => rwa [eraseFrom_note isNote]

theorem mem_of_mem_eraseFrom {name : List α} {c : α} (h : c ∈ eraseFrom seen 0 name) : c ∈ name := by
  induction name using inductionOn seen with
  | nil => exact h
  | kept d cs hd ih =>
    rw [eraseFrom_cons hd, List.mem_cons] at h
    exact List.mem_cons.mpr (h.imp id ih)
  | note note rest isNote ih =>
    rw [eraseFrom_note isNote] at h
    exact List.mem_append_right note (ih h)

theorem IsOpen.cons {before : List α} (h : IsOpen seen before) (c : α) : IsOpen seen (c :: before) := by
  obtain ⟨front, o, body, rfl, ho, hbody⟩ := h
  exact ⟨c :: front, o, body, rfl, ho, hbody⟩

/-- **Pieces are cleaned apart** if no parenthesis that is left open in the first is closed in the second. -/
theorem eraseFrom_append {before behind : List α}
    (h : IsOpen seen (eraseFrom seen 0 before) → ¬ IsClosable seen behind) :
    eraseFrom seen 0 (before ++ behind) = eraseFrom seen 0 before ++ eraseFrom seen 0 behind := by
  induction before using inductionOn seen with
  | nil => rfl
  | kept c before hc ih =>
    rw [eraseFrom_cons hc] at h ⊢
    have hkept : seen c = '(' → ¬ IsClosable seen (before ++ behind) := by
      intro ho hclosable
      obtain hbefore | ⟨hline, hbehind⟩ := isClosable_append.mp hclosable
      · exact hc ho hbefore
      · -- nothing but the rest of the line of the parenthesis stands before the seam
        exact h ⟨[], c, _, rfl, ho, fun d hd => hline d (mem_of_mem_eraseFrom hd)⟩ hbehind
    rw [List.cons_append, eraseFrom_cons hkept, ih fun hopen => h (hopen.cons c), List.cons_append]
  | note note rest isNote ih =>
    rw [eraseFrom_note isNote] at h ⊢
    rw [List.append_assoc, eraseFrom_note isNote, ih h]

/-- A line break, an opening parenthesis that is never closed, and a closing one where none is left open. -/
def IsLoose (seen : α → Char) (before : List α) (c : α) (behind : List α) : Prop :=
  seen c = '\n' ∨ seen c = '(' ∧ ¬ IsClosable seen behind ∨ seen c = ')' ∧ ¬ IsOpen seen (eraseFrom seen 0 before)

theorem eraseFrom_of_isLoose {before behind : List α} {c : α} (h : IsLoose seen before c behind) :
    eraseFrom seen 0 (before ++ c :: behind) = eraseFrom seen 0 before ++ c :: eraseFrom seen 0 behind := by
  have hseam : IsOpen seen (eraseFrom seen 0 before) → ¬ IsClosable seen (c :: behind) := by
    intro hopen hclosable
    rw [isClosable_cons] at hclosable
    obtain hc | ⟨ho, hbehind⟩ | ⟨-, hclosed⟩ := h
    · simp [hc] at hclosable
    · simp [ho, hbehind] at hclosable
    · exact hclosed hopen
  have hkept : seen c = '(' → ¬ IsClosable seen behind := by
    intro ho
    obtain hc | ⟨-, hbehind⟩ | ⟨hc, -⟩ := h
    · exact absurd (hc.symm.trans ho) (by decide)
    · exact hbehind
    · exact absurd (hc.symm.trans ho) (by decide)
  rw [eraseFrom_append hseam, eraseFrom_cons hkept]

/-! ## Clean names -/

/-- What is `left` of a name when notes are cut out of it, and nothing else. -/
structure Cleaned (seen : α → Char) (name left : List α) : Prop where
  /-- The name can be cut, in one way only. -/
  existsUnique_cuts : ∃! p : List (List α × List α) × List α, Cuts seen name p.1 p.2
  /-- The gaps are left, in order. -/
  eq_gaps : ∀ cuts last, Cuts seen name cuts last →
    name = cuts.flatMap (fun p => p.1 ++ p.2) ++ last ∧ left = cuts.flatMap Prod.fst ++ last
  /-- No opening parenthesis is left that is closed on its line. -/
  isGap : IsGap seen left []
  /-- A loose character is left between what is left of the text before it and of the text behind it. -/
  loose : ∀ before c behind, name = before ++ c :: behind → IsLoose seen before c behind →
    left = eraseFrom seen 0 before ++ c :: eraseFrom seen 0 behind

theorem cleaned (seen : α → Char) (name : List α) : Cleaned seen name (eraseFrom seen 0 name) where
  existsUnique_cuts := by
    obtain ⟨cuts, last, h⟩ := exists_cuts seen name
    exact ⟨(cuts, last), h, fun p hp => Prod.ext (hp.unique h).1 (hp.unique h).2⟩
  eq_gaps _ _ h := ⟨h.name_eq, h.eraseFrom_eq⟩
  isGap := isGap_eraseFrom seen name
  loose := by
    rintro before c behind rfl h
    exact eraseFrom_of_isLoose h

theorem eraseFrom_eraseFrom (seen : α → Char) (name : List α) :
    eraseFrom seen 0 (eraseFrom seen 0 name) = eraseFrom seen 0 name :=
  eraseFrom_of_isGap (isGap_eraseFrom seen name)

/-- **Notes are cut out of a name, and nothing else**; a clean name has none. So it is with code points, too, whether or
    not they are a text. -/
theorem cleaned_erase :
    (∀ s : String, Cleaned id s.toList (erase s).toList ∧ erase (erase s) = erase s) ∧
      ∀ p : CodePoints, Cleaned CodePoints.standInFor p.points (erasePoints p).points ∧
        erasePoints (erasePoints p) = erasePoints p := by
  constructor
  · intro s
    have hleft : (erase s).toList = eraseFrom id 0 s.toList := String.toList_ofList
    refine ⟨hleft ▸ cleaned id s.toList, ?_⟩
    rw [erase, hleft, eraseFrom_eraseFrom]
    rfl
  · intro p
    refine ⟨cleaned CodePoints.standInFor p.points, ?_⟩
    rw [erasePoints, erasePoints, eraseFrom_eraseFrom]

/-- A parenthesis that a line break leaves open, one that closes nothing, a note with a parenthesis in it, and one that
    is open at the end. -/
theorem cleaned_erase_awkward :
    let name := "a(b\n)(c(d)e)f("
    let gap := ['a', '(', 'b', '\n', ')']
    let note := ['(', 'c', '(', 'd', ')']
    let last := ['e', ')', 'f', '(']
    Cuts id name.toList [(gap, note)] last ∧ (erase name).toList = gap ++ last := by
  intro name gap note last
  have hname : name.toList = gap ++ (note ++ last) := by decide +kernel
  have hbody : IsBody id ['c', '(', 'd'] := by decide
  have hnote : IsNote id note := .mk (show id '(' = '(' from rfl) hbody rfl
  have hfirst : IsGap id gap (note ++ last) := by decide
  have hlast : IsGap id last [] := by decide
  have hcuts : Cuts id name.toList [(gap, note)] last := by
    rw [hname]
    exact .note hfirst hnote (.last hlast)
  exact ⟨hcuts, ((cleaned_erase.1 name).1.eq_gaps _ _ hcuts).2⟩

end Stencil.Note
