import Stencil.Run.Steps
import Stencil.Proofs.Outline.Document
import Stencil.Proofs.Run.Saving

/-!
# `Stencil.Proofs.Outline.Spacing` — documents that are spaced differently

What an outline says does not depend on how its document is laid out: which line breaks end the lines, how many blank
lines stand between them, and how many spaces stand at their ends.

## Contents
- **Lines.** A line is classified by its tabs and by what is left when it is stripped (`Line.classify_congr`).
- **Numbers.** `Builder.renumber` changes the numbers in the reports of a builder; lines with other numbers make the
  same folders (`addAll_renumber`).
- **Spacing.** `Respaced` relates the lines of a document to those with blank lines and spaces put in, and gives the
  number that each line has then (`Respaced.classifyFrom`).
- **Layout.** `ofText_layout`.
-/

namespace Stencil

open Text

/-! ## Lines -/

namespace Line

/-- Only the tabs of a line count, and what is left when it is stripped. -/
theorem classify_congr {cs ds : List Char} (htabs : tabs cs = tabs ds) (hstrip : strip cs = strip ds) :
    classify cs = classify ds := by
  have hfolder : isFolder cs = isFolder ds := by rw [isFolder, isFolder, hstrip]
  have hname : folderName cs = folderName ds := by rw [folderName, folderName, hstrip]
  simp only [classify, ofFolder, ofFile, hfolder, hname, htabs, hstrip]

end Line

/-- A line with spaces at its ends. -/
def spaced (before : Nat) (l : List Char) (behind : Nat) : List Char :=
  List.replicate before ' ' ++ (l ++ List.replicate behind ' ')

theorem isBlank_of_mem_replicate {n : Nat} {c : Char} (h : c ∈ List.replicate n ' ') : isBlank c = true := by
  rw [List.eq_of_mem_replicate h]
  decide

@[simp] theorem strip_spaced (before : Nat) (l : List Char) (behind : Nat) :
    strip (spaced before l behind) = strip l := by
  rw [spaced, strip_append_left fun c => isBlank_of_mem_replicate,
    strip_append_right fun c => isBlank_of_mem_replicate]

@[simp] theorem tabs_spaced (before : Nat) (l : List Char) (behind : Nat) :
    Line.tabs (spaced before l behind) = Line.tabs l := by
  simp [Line.tabs, spaced, List.count_append, List.count_replicate]

/-! ## Numbers -/

namespace Builder

/-- The builder that has taken its lines with other numbers. -/
def renumber (f : Int → Int) (b : Builder) : Builder :=
  { b with dropped := b.dropped.map fun d => { d with number := f d.number } }

theorem add_renumber (f : Int → Int) (b : Builder) (line : Line) (number : Int) :
    (b.renumber f).add line (f number) = (b.add line number).renumber f := by
  -- the drafts, and what encloses the line, do not depend on the reports
  have hattached : (b.renumber f).attached line = b.attached line := rfl
  have henclosing : (b.renumber f).enclosing? line.depth = b.enclosing? line.depth := rfl
  rw [add_eq, add_eq]
  simp only [hattached, henclosing]
  simp only [renumber, List.map_append, apply_ite (List.map _), List.map_singleton, List.map_nil]

/-- **Lines with other numbers are reported with these numbers**, and nothing else is different. -/
theorem addAll_renumber (f : Int → Int) (b : Builder) (ls : List (Line × Int)) :
    (b.renumber f).addAll (ls.map fun l => (l.1, f l.2)) = (b.addAll ls).renumber f := by
  induction ls generalizing b with
  | nil => rfl
  | cons l ls ih =>
    rw [List.map_cons, addAll, addAll, List.foldl_cons, List.foldl_cons, add_renumber]
    exact ih (b.add l.1 l.2)

end Builder

/-! ## Spacing -/

namespace Outline

/-- The lines `ms`, the first of which has the number `number`, are the lines `ls` with blank lines put in anywhere and
    spaces put at the ends of any lines. The lines `ls` have the numbers `ns` then. -/
inductive Respaced : (number : Int) → (ls ms : List (List Char)) → (ns : List Int) → Prop
  | nil (number : Int) : Respaced number [] [] []
  | blank {number : Int} {w : List Char} {ls ms : List (List Char)} {ns : List Int} (hw : strip w = [])
      (h : Respaced (number + 1) ls ms ns) : Respaced number ls (w :: ms) ns
  | line {number : Int} (before : Nat) (l : List Char) (behind : Nat) {ls ms : List (List Char)} {ns : List Int}
      (h : Respaced (number + 1) ls ms ns) : Respaced number (l :: ls) (spaced before l behind :: ms) (number :: ns)

/-- The new number of a line that had a number before, where the numbers started with `first`. -/
def newNumber (first : Int) (ns : List Int) (number : Int) : Int := ns.getD (number - first).toNat number

theorem newNumber_first (first number : Int) (ns : List Int) : newNumber first (number :: ns) first = number := by
  simp [newNumber]

/-- Behind the first line, numbers are looked up behind the first number. -/
theorem newNumber_cons {first number : Int} (h : first + 1 ≤ number) (m : Int) (ns : List Int) :
    newNumber first (m :: ns) number = newNumber (first + 1) ns number := by
  have hnat : (number - first).toNat = (number - (first + 1)).toNat + 1 := by omega
  simp [newNumber, hnat]

theorem le_of_mem_classifyFrom {first : Int} {ls : List (List Char)} {l : Line × Int}
    (h : l ∈ classifyFrom first ls) : first ≤ l.2 := by
  induction ls generalizing first with
  | nil => simp [classifyFrom] at h
  | cons m ls ih =>
    have hlater : l ∈ classifyFrom (first + 1) ls → first ≤ l.2 := fun hl => by
      have := ih hl
      omega
    rw [classifyFrom] at h
    split at h
    · exact hlater h
    · rcases List.mem_cons.mp h with rfl | h
      · exact Int.le_refl first
      · exact hlater h

/-- **Spacing changes the numbers of lines, and nothing else.** -/
theorem Respaced.classifyFrom {number : Int} {ls ms : List (List Char)} {ns : List Int}
    (h : Respaced number ls ms ns) (first : Int) :
    classifyFrom number ms =
      (Outline.classifyFrom first ls).map fun l => (l.1, newNumber first ns l.2) := by
  induction h generalizing first with
  | nil => rfl
  | blank hw h ih =>
    rw [Outline.classifyFrom, if_pos (by simp [hw])]
    exact ih first
  | @line number before l behind ls ms ns h ih =>
    have hlater : (Outline.classifyFrom (first + 1) ls).map (fun l => (l.1, newNumber first (number :: ns) l.2)) =
        (Outline.classifyFrom (first + 1) ls).map fun l => (l.1, newNumber (first + 1) ns l.2) :=
      List.map_congr_left fun m hm => by rw [newNumber_cons (le_of_mem_classifyFrom hm)]
    have hline : Line.classify (spaced before l behind) = Line.classify l :=
      Line.classify_congr (tabs_spaced before l behind) (strip_spaced before l behind)
    rw [Outline.classifyFrom, Outline.classifyFrom, strip_spaced]
    by_cases hl : (strip l).isEmpty
    · rw [if_pos hl, if_pos hl, ih (first + 1), hlater]
    · rw [if_neg hl, if_neg hl, List.map_cons, ih (first + 1), hlater, newNumber_first, hline]

/-! ## Layout -/

/-- An outline in a file is read as if its text had been given. -/
theorem exec_readOutline {st : RunState} {path : String} {text : List Char}
    (h : st.disk.readFile (Path.ofString path) = .ok (Utf8.encode text)) :
    Job.exec (Job.readOutline path) st = (.ok (ofText text), st) := by
  have hread : ofText (normalizeNewlines text) = ofText text := by
    rw [ofText, ofText, lines_normalizeNewlines]
  rw [Job.readOutline, Job.exec_bind, Job.exec_ask, FileSystem.holds_of_readFile h]
  simp only [Except.mapError, if_true]
  rw [Job.exec_bind, Job.exec_readText_encode h]
  simp only [String.toList_ofList, hread, Job.exec_pure]

/-- Lines that are joined are read as if they had not been joined. -/
theorem ofText_intercalate {br : List Char} (hbr : IsBreak br) {ls : List (List Char)}
    (hls : ∀ l ∈ ls, ∀ c ∈ l, isLineBreak c = false) :
    ofText (br.intercalate ls) = (Builder.empty.addAll (classifyFrom 1 ls)).build := by
  rcases lines_intercalate hbr hls with h | h
  · rw [ofText, h]
  · have hlast : classifyFrom 1 ls = classifyFrom 1 (lines (br.intercalate ls)) := by
      conv => lhs; rw [← h, classifyFrom_append]
      simp [classifyFrom]
    rw [ofText, hlast]

/-- **The layout of a document does not matter.** The outline in a file is that of the text that the file holds.
    Lines that are joined by any one line break, LF, CR LF and CR among them, give the outline of the lines. If blank
    lines are put between the lines of a document and spaces at their ends, the folders stay as they are, and so do
    the messages, but for the numbers: each tells the new number of its line. -/
theorem ofText_layout :
    (∀ (st : RunState) (path : String) (text : List Char),
      st.disk.readFile (Path.ofString path) = .ok (Utf8.encode text) →
        Job.exec (Job.readOutline path) st = (.ok (ofText text), st)) ∧
    (∀ (br : List Char) (ls : List (List Char)), IsBreak br → (∀ l ∈ ls, ∀ c ∈ l, isLineBreak c = false) →
      ofText (br.intercalate ls) = (Builder.empty.addAll (classifyFrom 1 ls)).build) ∧
    ∀ (text text' : List Char) (ns : List Int), Respaced 1 (lines text) (lines text') ns →
      let drops := (Builder.empty.addAll (classifyFrom 1 (lines text))).dropped
      (ofText text').folders = (ofText text).folders ∧
        (ofText text).dropped = drops.map Drop.message ∧
        (ofText text').dropped = drops.map fun d => { d with number := newNumber 1 ns d.number }.message := by
  refine ⟨fun st path text h => exec_readOutline h, fun br ls hbr hls => ofText_intercalate hbr hls, ?_⟩
  intro text text' ns h drops
  have hlines : ofText text' =
      ((Builder.empty.addAll (classifyFrom 1 (lines text))).renumber (newNumber 1 ns)).build := by
    rw [ofText, h.classifyFrom 1]
    exact congrArg Builder.build (Builder.addAll_renumber (newNumber 1 ns) Builder.empty _)
  rw [hlines]
  refine ⟨rfl, rfl, ?_⟩
  show (drops.map _).map Drop.message = _
  rw [List.map_map]
  rfl

/-- A file with CR LF for its lines, of which the second one is lost; the same lines joined by CR; and the lines behind
    an empty one, with spaces at their ends. The lost line is reported with the number that it has then. -/
theorem ofText_layout_carriage_returns :
    let ls := ["A:".toList, "\t\tx".toList]
    let disk : FileSystem := { entries := [(["o"], .file (Utf8.encode "A:\r\n\t\tx".toList))] }
    (Job.exec (Job.readOutline "o") { disk }).1 = .ok (ofText "A:\r\n\t\tx".toList) ∧
      ofText "A:\r\t\tx".toList = (Builder.empty.addAll (classifyFrom 1 ls)).build ∧
      (ofText "\n A:\n\t\tx  ".toList).folders.map Folder.name = ["A"] ∧
      (ofText "\n A:\n\t\tx  ".toList).dropped = ["line 3: file 'x' at depth 2 has no enclosing folder"] := by
  intro ls disk
  obtain ⟨hread, hjoin, hspace⟩ := ofText_layout
  have hplain : ∀ l ∈ ls, ∀ c ∈ l, isLineBreak c = false := by simp [ls, isLineBreak]
  have hspaced : Respaced 1 (lines "A:\r\n\t\tx".toList) (lines "\n A:\n\t\tx  ".toList) [2, 3] := by
    have hlines : lines "A:\r\n\t\tx".toList = ls := by decide +kernel
    have hlines' : lines "\n A:\n\t\tx  ".toList =
        [[], spaced 1 "A:".toList 0, spaced 0 "\t\tx".toList 2] := by decide +kernel
    rw [hlines, hlines']
    exact .blank rfl (.line 1 _ 0 (.line 0 _ 2 (.nil 4)))
  obtain ⟨hfolders, -, hdropped⟩ := hspace _ _ _ hspaced
  refine ⟨?_, ?_, (congrArg (List.map Folder.name) hfolders).trans (by decide +kernel),
    hdropped.trans (by decide +kernel)⟩
  · rw [hread { disk } "o" "A:\r\n\t\tx".toList (by decide +kernel)]
  · exact (congrArg ofText (by decide +kernel)).trans (hjoin ['\r'] ls (.single (by decide +kernel)) hplain)

end Outline

end Stencil
