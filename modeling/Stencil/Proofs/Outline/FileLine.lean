import Mathlib.Data.Bool.AllAny
import Stencil.Outline.Line
import Stencil.Proofs.Json.FlatObject

/-!
# `Stencil.Proofs.Outline.FileLine` — what any line that is no folder says

`WrittenLine` is about lines that are written for a file. Here the line is any line at all, with hyphens
and brackets anywhere, and is described by the pieces that it is cut into.

## Contents
- **Pieces.** `filePieces` are the pieces between hyphens that are not empty; the first and the last of
  them, without the blanks around them, are all that a line is read by.
- **Brackets.** The span from the first opening to the last closing bracket (`exists_span`), and what is
  left of a text without it.
- **Reading.** `ReadsPieces` says what is read off the pieces, and `classify_of_not_folder` that every line
  which does not end in a colon is read so; what lies between those two pieces has no part in it.
-/

namespace Stencil

open Text

/-! ## Pieces -/

theorem Text.pieces_eq_splitOn {α : Type} [DecidableEq α] (sep : α) (cs : List α) :
    pieces sep cs = cs.splitOn sep := by
  induction cs with
  | nil => rfl
  | cons c cs ih =>
    rw [pieces, List.splitOn_cons_eq_if_modifyHead, ← ih]
    by_cases hc : c = sep
    · rw [if_pos hc, if_pos (by simpa using hc)]
    · rw [if_neg hc, if_neg (by simpa using hc)]
      cases hps : pieces sep cs with
      | nil => exact absurd hps (pieces_ne_nil sep cs)
      | cons p ps => rfl

theorem Text.strip_subset (cs : List Char) : strip cs ⊆ cs := by
  intro c hc
  rw [strip, trim, trimEnd, List.mem_reverse] at hc
  have hfront := List.mem_reverse.mp ((List.dropWhile_sublist _).subset hc)
  exact (List.dropWhile_sublist _).subset hfront

namespace Line

variable {cs : List Char}

/-- The pieces between the hyphens of a line that are not empty; blanks around the line do not count. -/
def filePieces (cs : List Char) : List (List Char) := ((strip cs).splitOn '-').filter (· ≠ [])

/-- The first piece without the blanks around it, empty if there is none. -/
def firstPiece (cs : List Char) : List Char := strip ((filePieces cs).headD [])

/-- The last piece without the blanks around it, empty if there is none. -/
def lastPiece (cs : List Char) : List Char := strip ((filePieces cs).getLastD [])

theorem segments_strip (cs : List Char) : segments (strip cs) = filePieces cs := by
  rw [segments, filePieces, pieces_eq_splitOn]
  congr 1
  funext p
  cases p <;> rfl

theorem left_strip (cs : List Char) : left (strip cs) = firstPiece cs := by
  rw [left, segments_strip, firstPiece]

/-- Where there is no piece there are no parameters, as if the last piece were empty. -/
theorem parametersOf_strip (cs : List Char) : parametersOf (strip cs) = Scope.ofJson? (lastPiece cs) := by
  rw [parametersOf, segments_strip, lastPiece]
  cases hlast : (filePieces cs).getLast? with
  | none =>
    rw [List.getLast?_eq_none_iff.mp hlast]
    rfl
  | some payload => rw [List.getLastD_eq_getLast?, hlast, Option.getD_some]

/-- A piece holds only what the line holds. -/
theorem firstPiece_subset (cs : List Char) : firstPiece cs ⊆ cs := by
  rw [firstPiece, ← segments_strip]
  cases hseg : segments (strip cs) with
  | nil => exact List.nil_subset cs
  | cons p ps =>
    have hp : p ∈ pieces '-' (strip cs) := by
      have hin : p ∈ segments (strip cs) := hseg ▸ List.mem_cons_self
      exact (List.mem_filter.mp hin).1
    exact List.Subset.trans (strip_subset p) (List.Subset.trans (subset_of_mem_pieces hp) (strip_subset cs))

/-! ## Brackets -/

/-- An opening or a closing bracket. -/
def IsBracket (c : Char) : Prop := c = '[' ∨ c = ']'

instance : DecidablePred IsBracket := fun _ => inferInstanceAs (Decidable (_ ∨ _))

/-- Brackets span a text from the first opening to the last closing one. -/
structure Spans (before span behind cs : List Char) : Prop where
  eq : cs = before ++ '[' :: (span ++ ']' :: behind)
  /-- No bracket opens in front. -/
  opens : '[' ∉ before
  /-- No bracket closes behind. -/
  closes : ']' ∉ behind

variable {before span behind : List Char}

theorem exists_span (h : HasBrackets cs) : ∃ before span behind, Spans before span behind cs := by
  obtain ⟨front, inner, rest, rfl⟩ := h
  -- the first opening bracket is this one or one in front of it, the last closing one is this or behind it
  have hopen : '[' ∈ front ++ ['['] := by simp
  obtain ⟨before, more, hfront, hbefore⟩ := List.eq_append_cons_of_mem hopen
  have hclose : ']' ∈ (more ++ (inner ++ ']' :: rest)).reverse := by simp
  obtain ⟨behind, span, hrest, hbehind⟩ := List.eq_append_cons_of_mem hclose
  have hspan : more ++ (inner ++ ']' :: rest) = span.reverse ++ ']' :: behind.reverse := by
    rw [← List.reverse_reverse (more ++ (inner ++ ']' :: rest)), hrest]
    simp
  refine ⟨before, span.reverse, behind.reverse, ?_, hbefore, by simpa using hbehind⟩
  calc front ++ '[' :: (inner ++ ']' :: rest)
      = (front ++ ['[']) ++ (inner ++ ']' :: rest) := by simp
    _ = before ++ '[' :: (more ++ (inner ++ ']' :: rest)) := by rw [hfront]; simp
    _ = before ++ '[' :: (span.reverse ++ ']' :: behind.reverse) := by rw [hspan]

/-- On one line of text the template id is what the brackets span, less any brackets inside. -/
theorem templateIdOf_of_spans (h : Spans before span behind cs) (hline : '\n' ∉ cs) :
    templateIdOf cs = span.filter fun c => ¬ IsBracket c := by
  have hspan : '\n' ∉ span ++ ']' :: behind := by
    intro hin
    exact hline (by rw [h.eq]; exact List.mem_append_right _ (List.mem_cons_of_mem _ hin))
  have hbetween : bracketed? cs = some span := by rw [h.eq, bracketed?_append h.opens h.closes hspan]
  rw [templateIdOf, hbetween]
  exact List.filter_congr fun c _ => Bool.eq_iff_iff.mpr (by simp [IsBracket])

/-- A text without brackets has no template id to lose. -/
theorem eraseWord_of_not_hasBrackets (h : ¬ HasBrackets cs) (i : List Char) :
    eraseWord ('[' :: i ++ [']']) cs = cs := by
  apply eraseWord_eq_self
  rintro ⟨front, rest, rfl⟩
  exact h ⟨front, i, rest, by simp⟩

/-- The span is deleted, and nothing else is. -/
theorem eraseWord_of_spans (h : Spans before span behind cs) :
    eraseWord ('[' :: span ++ [']']) cs = before ++ behind := by
  have hbehind : ¬ '[' :: span ++ [']'] <:+: behind := fun hin => h.closes (hin.subset (by simp))
  calc eraseWord ('[' :: span ++ [']']) cs
      = eraseWord ('[' :: span ++ [']']) (before ++ (('[' :: span ++ [']']) ++ behind)) := by
        rw [h.eq]
        simp
    _ = before ++ eraseWord ('[' :: span ++ [']']) (('[' :: span ++ [']']) ++ behind) :=
        eraseWord_append_left h.opens _ _
    _ = before ++ behind := by rw [eraseWord_append (by simp), eraseWord_eq_self hbehind]

/-! ## Reading -/

/-- A line that is read by its pieces. -/
structure ReadsPieces (cs : List Char) (line : Line) : Prop where
  kind : line.kind = .file
  /-- Tabs count wherever they stand. -/
  depth : line.depth = cs.count '\t'
  /-- There are parameters exactly if the last piece is an object of strings. -/
  parameters : ∀ s, line.parameters = some s ↔ ∃ es, Json.FlatText (lastPiece cs) es ∧ Scope.ofList es = s
  /-- Without brackets the first piece is the name. -/
  bare : ¬ HasBrackets (firstPiece cs) → line.templateId = "" ∧ line.name = String.ofList (firstPiece cs)
  /-- With one pair of brackets that counts, the template id is in it and the name around it. -/
  marked : ∀ before i behind, Spans before i behind (firstPiece cs) → (∀ c ∈ i, ¬ IsBracket c) →
    line.templateId = String.ofList i ∧ line.name = String.ofList (before ++ behind)
  /-- With brackets inside, the template id is what is left of the span without them. -/
  spanned : HasBrackets (firstPiece cs) → ∃ before span behind, Spans before span behind (firstPiece cs) ∧
    line.templateId = String.ofList (span.filter fun c => ¬ IsBracket c)

theorem classify_eq_of_not_folder (hfile : (strip cs).getLast? ≠ some ':') :
    classify cs =
      { depth := cs.count '\t'
        kind := .file
        name := String.ofList (eraseWord ('[' :: templateIdOf (firstPiece cs) ++ [']']) (firstPiece cs))
        templateId := String.ofList (templateIdOf (firstPiece cs))
        parameters := Scope.ofJson? (lastPiece cs) } := by
  have hkind : ¬ isFolder cs = true := by simpa [isFolder] using hfile
  rw [classify, if_neg hkind, ofFile]
  simp only [fileName, left_strip, parametersOf_strip, tabs]

/-- **A line that is no folder is read by its first and its last piece.** It is on one line of text and may hold
    anything else; two such lines with as many tabs and the same two pieces are read alike. -/
theorem classify_of_not_folder {cs : List Char} (hline : '\n' ∉ cs) (hfile : (strip cs).getLast? ≠ some ':') :
    ReadsPieces cs (classify cs) ∧
      ∀ ds, (strip ds).getLast? ≠ some ':' → ds.count '\t' = cs.count '\t' →
        firstPiece ds = firstPiece cs → lastPiece ds = lastPiece cs → classify ds = classify cs := by
  have hfirst : '\n' ∉ firstPiece cs := fun hin => hline (firstPiece_subset cs hin)
  constructor
  · rw [classify_eq_of_not_folder hfile]
    refine
      { kind := rfl
        depth := rfl
        parameters := fun s => Scope.ofJson?_eq_some_iff
        bare := fun hbare => ?_
        marked := fun before i behind hspan hplain => ?_
        spanned := fun hbrackets => ?_ }
    · have hid : templateIdOf (firstPiece cs) = [] := by rw [templateIdOf, bracketed?_eq_none hbare]
      exact ⟨by rw [hid], by rw [eraseWord_of_not_hasBrackets hbare]⟩
    · have hid : templateIdOf (firstPiece cs) = i := by
        rw [templateIdOf_of_spans hspan hfirst]
        exact List.filter_eq_self.mpr fun c hc => by simpa using hplain c hc
      exact ⟨by rw [hid], by rw [hid, eraseWord_of_spans hspan]⟩
    · obtain ⟨before, span, behind, hspan⟩ := exists_span hbrackets
      exact ⟨before, span, behind, hspan, by rw [templateIdOf_of_spans hspan hfirst]⟩
  · intro ds hds htabs hfirst hlast
    rw [classify_eq_of_not_folder hds, classify_eq_of_not_folder hfile, htabs, hfirst, hlast]

/-- Stray brackets stay in the name, and neither the piece in the middle nor where the tab stands matters. -/
theorem classify_of_not_folder_stray_brackets :
    let cs := "\t x]y[T]z[w - \x7b\"q\": 1\x7d --  \x7b\"k\": \"v\"\x7d ".toList
    let ds := "x]y[T]z[w -\x7b\"k\": \"v\"\x7d\t".toList
    (classify cs).templateId = "T" ∧ (classify cs).name = "x]yz[w" ∧
      (classify cs).parameters = some (Scope.ofList [("k", "v")]) ∧ classify ds = classify cs := by
  intro cs ds
  have hline : '\n' ∉ cs := by decide
  have hfile : (strip cs).getLast? ≠ some ':' := by decide
  obtain ⟨hreads, hother⟩ := classify_of_not_folder hline hfile
  have hspan : Spans "x]y".toList "T".toList "z[w".toList (firstPiece cs) := ⟨by decide, by decide, by decide⟩
  obtain ⟨hid, hname⟩ := hreads.marked _ _ _ hspan (List.all_iff_forall_prop.mp (by decide))
  refine ⟨hid, hname, by decide +kernel, hother ds ?_ ?_ ?_ ?_⟩
  all_goals decide +kernel

end Line

end Stencil
