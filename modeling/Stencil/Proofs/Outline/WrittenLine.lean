import Stencil.Outline.Builder
import Stencil.Proofs.Json.FlatObject
import Stencil.Proofs.Text.Lines

/-!
# `Stencil.Proofs.Outline.WrittenLine` — lines that are written for folders and files

## Contents
- **Writing.** `IsFolderLine` and `File.IsFileLine` say how a folder and a file are written at a depth,
  the parameters of a file as any JSON text that stands for them.
- **Names.** `IsPlainName` and `File.IsWritable` leave out the characters that mean something in a line.
- **Reading.** A line that is written for a folder or for a file is classified as just that
  (`ReadsAsFolder`, `ReadsAsFile`).
-/

namespace Stencil

open Text

/-! ## Writing -/

/-- A name that stands for itself in a folder line: no tabs, no line breaks, no blanks around it. -/
structure IsPlainName (name : String) : Prop where
  /-- It holds no line break. -/
  unbroken : ∀ c ∈ name.toList, isLineBreak c = false
  /-- It holds no tab. -/
  no_tab : '\t' ∉ name.toList
  /-- There are no blanks around it. -/
  strip_eq : strip name.toList = name.toList

/-- A folder line: the name and a colon, behind a tab for each folder around. -/
def IsFolderLine (depth : Nat) (name : String) (cs : List Char) : Prop :=
  cs = List.replicate depth '\t' ++ (name.toList ++ [':'])

namespace File

/-- A character that means nothing in a file line: no bracket, no hyphen, no tab and no line break. -/
def IsOrdinary (c : Char) : Prop := c ∉ ['[', ']', '-', '\t'] ∧ isLineBreak c = false

instance : DecidablePred IsOrdinary := fun _ => inferInstanceAs (Decidable (_ ∧ _))

/-- A file that can be written on a line. -/
structure IsWritable (f : File) : Prop where
  /-- The template id means nothing else. -/
  templateId : ∀ c ∈ f.templateId.toList, IsOrdinary c
  /-- The name means nothing else. -/
  name : ∀ c ∈ f.name.toList, IsOrdinary c
  /-- There are no blanks around the name. -/
  strip_name : strip f.name.toList = f.name.toList
  /-- There is something to write. -/
  nonempty : ¬ (f.templateId = "" ∧ f.name = "")
  /-- A name with nothing behind it is not taken for a folder. -/
  no_colon : f.parameters = none → f.name.toList.getLast? ≠ some ':'
  /-- A name with nothing around it is not taken for parameters. -/
  no_scope : f.parameters = none → f.templateId = "" → Scope.ofJson? f.name.toList = none

/-- Template id and name, as far as they are not empty. -/
def caption (f : File) : List Char :=
  (if f.templateId = "" then [] else '[' :: (f.templateId.toList ++ [']'])) ++ f.name.toList

/-- A file line, behind a tab for each folder around. -/
inductive IsFileLine (depth : Nat) (f : File) : List Char → Prop
  | bare (hp : f.parameters = none) : IsFileLine depth f (List.replicate depth '\t' ++ f.caption)
  | withParameters {s : Scope} {j : List Char} (hp : f.parameters = some s)
      (hj : Scope.ofJson? j = some s) (hplain : ∀ c ∈ j, c ∉ ['-', '\t'] ∧ isLineBreak c = false) :
      IsFileLine depth f (List.replicate depth '\t' ++ (f.caption ++ ([' ', '-', ' '] ++ j)))

end File

/-! ## Reading -/

/-- A classified line that names a folder at a depth. -/
structure ReadsAsFolder (depth : Nat) (name : String) (line : Line) : Prop where
  kind : line.kind = .folder
  depth : line.depth = depth
  name : line.name = name

/-- A classified line that names a file at a depth. -/
structure ReadsAsFile (depth : Nat) (f : File) (line : Line) : Prop where
  kind : line.kind = .file
  depth : line.depth = depth
  file : Builder.fileOf line = f

namespace Line

variable {depth : Nat} {cs : List Char}

theorem strip_tabs (depth : Nat) (cs : List Char) :
    strip (List.replicate depth '\t' ++ cs) = strip cs := by
  apply strip_append_left
  intro c hc
  rw [List.eq_of_mem_replicate hc]
  decide

/-- The depth is the number of tabs in front. -/
theorem tabs_replicate (depth : Nat) (h : '\t' ∉ cs) : tabs (List.replicate depth '\t' ++ cs) = depth := by
  rw [tabs, List.count_append, List.count_replicate_self, List.count_eq_zero.mpr h, Nat.add_zero]

theorem unbroken_tabs (depth : Nat) (h : ∀ c ∈ cs, isLineBreak c = false) :
    ∀ c ∈ List.replicate depth '\t' ++ cs, isLineBreak c = false := by
  intro c hc
  rcases List.mem_append.mp hc with hc | hc
  · rw [List.eq_of_mem_replicate hc]
    decide
  · exact h c hc

/-- A text that does not end in a blank keeps its end, and its start if that is none either. -/
theorem strip_eq_self_of_ends {c d : Char} (hhead : cs.head? = some c) (hc : isBlank c = false)
    (hlast : cs.getLast? = some d) (hd : isBlank d = false) : strip cs = cs := by
  refine strip_eq_self_iff.mpr ⟨fun x hx => ?_, fun x hx => ?_⟩
  · rw [hhead] at hx
    rwa [← Option.some.inj hx]
  · rw [hlast] at hx
    rwa [← Option.some.inj hx]

/-! ### Folder lines -/

variable {name : String}

theorem strip_name_colon (h : IsPlainName name) : strip (name.toList ++ [':']) = name.toList ++ [':'] := by
  have hlast : (name.toList ++ [':']).getLast? = some ':' := List.getLast?_concat
  cases hname : name.toList with
  | nil => rfl
  | cons c cs =>
    have hc := (strip_eq_self_iff.mp h.strip_eq).1 c (by rw [hname]; rfl)
    rw [hname] at hlast
    exact strip_eq_self_of_ends rfl hc hlast (by decide)

/-- **A folder line reads as its folder.** -/
theorem classify_of_isFolderLine (hname : IsPlainName name) (h : IsFolderLine depth name cs) :
    ReadsAsFolder depth name (classify cs) := by
  have hstrip : strip cs = name.toList ++ [':'] := by rw [h, strip_tabs, strip_name_colon hname]
  have hfolder : isFolder cs = true := by simp [isFolder, hstrip]
  have htabs : tabs cs = depth := by
    rw [h]
    exact tabs_replicate depth (by simpa using hname.no_tab)
  have hfolderName : folderName cs = name.toList := by
    rw [folderName, hstrip]
    simp [hname.strip_eq]
  rw [classify, if_pos hfolder]
  exact ⟨rfl, htabs, by rw [ofFolder, hfolderName, String.ofList_toList]⟩

theorem isLine_of_isFolderLine (hname : IsPlainName name) (h : IsFolderLine depth name cs) : IsLine cs := by
  subst h
  constructor
  · apply unbroken_tabs
    intro c hc
    rcases List.mem_append.mp hc with hc | hc
    · exact hname.unbroken c hc
    · rw [List.mem_singleton.mp hc]
      decide
  · rw [strip_tabs, strip_name_colon hname]
    simp

/-! ### Captions -/

variable {f : File}

theorem not_mem_of_isOrdinary {x : Char} (hx : x ∈ ['[', ']', '-', '\t']) {w : List Char}
    (h : ∀ c ∈ w, File.IsOrdinary c) : x ∉ w := fun hm => (h x hm).1 hx

theorem caption_of_templateId_eq (h : f.templateId = "") : f.caption = f.name.toList := by
  rw [File.caption, if_pos h, List.nil_append]

theorem caption_of_templateId_ne (h : f.templateId ≠ "") :
    f.caption = '[' :: (f.templateId.toList ++ ']' :: f.name.toList) := by
  rw [File.caption, if_neg h, List.cons_append, List.append_assoc, List.singleton_append]

theorem mem_caption {c : Char} (h : c ∈ f.caption) :
    c = '[' ∨ c = ']' ∨ c ∈ f.templateId.toList ∨ c ∈ f.name.toList := by
  unfold File.caption at h
  split at h
  · exact .inr (.inr (.inr (by simpa using h)))
  · simp only [List.cons_append, List.append_assoc, List.nil_append, List.mem_cons, List.mem_append] at h
    rcases h with h | h | h | h
    · exact .inl h
    · exact .inr (.inr (.inl h))
    · exact .inr (.inl h)
    · exact .inr (.inr (.inr h))

theorem not_mem_caption (hf : f.IsWritable) {x : Char} (hx : x ∈ ['-', '\t']) : x ∉ f.caption := by
  have hx' : x ∈ ['[', ']', '-', '\t'] := List.mem_append_right ['[', ']'] hx
  intro hm
  rcases mem_caption hm with rfl | rfl | hm | hm
  · exact absurd hx (by decide)
  · exact absurd hx (by decide)
  · exact not_mem_of_isOrdinary hx' hf.templateId hm
  · exact not_mem_of_isOrdinary hx' hf.name hm

theorem unbroken_caption (hf : f.IsWritable) : ∀ c ∈ f.caption, isLineBreak c = false := by
  intro c hc
  rcases mem_caption hc with rfl | rfl | hc | hc
  · decide
  · decide
  · exact (hf.templateId c hc).2
  · exact (hf.name c hc).2

/-- A caption starts and ends with something, which is no blank. What it starts with is a bracket or the start of
    the name, what it ends with a bracket or the end of the name. -/
theorem caption_ends (hf : f.IsWritable) :
    ∃ c d, f.caption.head? = some c ∧ isBlank c = false ∧ f.caption.getLast? = some d ∧ isBlank d = false ∧
      (d = ']' ∨ f.name.toList.getLast? = some d) := by
  obtain ⟨hhead, hlast⟩ := strip_eq_self_iff.mp hf.strip_name
  cases hname : f.name.toList.getLast? with
  | none =>
    have hnil : f.name.toList = [] := List.getLast?_eq_none_iff.mp hname
    have hid : f.templateId ≠ "" := fun h =>
      hf.nonempty ⟨h, String.toList_inj.mp hnil⟩
    refine ⟨'[', ']', ?_, by decide, ?_, by decide, .inl rfl⟩
    · rw [caption_of_templateId_ne hid]
      rfl
    · rw [caption_of_templateId_ne hid, hnil]
      simp [List.getLast?_cons]
  | some d =>
    have hend : f.caption.getLast? = some d := by rw [File.caption, List.getLast?_append, hname]; rfl
    by_cases hid : f.templateId = ""
    · have hcaption := caption_of_templateId_eq hid
      obtain ⟨c, hc⟩ : ∃ c, f.name.toList.head? = some c := by
        cases hl : f.name.toList with
        | nil => rw [hl] at hname; cases hname
        | cons c cs => exact ⟨c, rfl⟩
      exact ⟨c, d, by rw [hcaption, hc], hhead c hc, hend, hlast d hname, .inr rfl⟩
    · refine ⟨'[', d, ?_, by decide, hend, hlast d hname, .inr rfl⟩
      rw [caption_of_templateId_ne hid]
      rfl

theorem strip_caption (hf : f.IsWritable) : strip f.caption = f.caption := by
  obtain ⟨c, d, hhead, hc, hlast, hd, -⟩ := caption_ends hf
  exact strip_eq_self_of_ends hhead hc hlast hd

theorem caption_ne_nil (hf : f.IsWritable) : f.caption ≠ [] := by
  obtain ⟨c, d, hhead, -⟩ := caption_ends hf
  intro h
  rw [h] at hhead
  cases hhead

/-- The template id of a caption is what was put into brackets. -/
theorem templateIdOf_caption (hf : f.IsWritable) : templateIdOf f.caption = f.templateId.toList := by
  by_cases hid : f.templateId = ""
  · have hbare : ¬ HasBrackets f.name.toList := by
      rintro ⟨before, inner, behind, hname⟩
      exact not_mem_of_isOrdinary (x := '[') (by decide) hf.name (by rw [hname]; simp)
    rw [caption_of_templateId_eq hid, hid, templateIdOf, bracketed?_eq_none hbare]
    rfl
  · have hclose : ']' ∉ f.name.toList := not_mem_of_isOrdinary (by decide) hf.name
    -- there is no LF that would keep the brackets apart
    have hline : '\n' ∉ f.templateId.toList ++ ']' :: f.name.toList := by
      intro hin
      have hbreak : isLineBreak '\n' = false := by
        apply unbroken_caption hf
        rw [caption_of_templateId_ne hid]
        exact List.mem_cons_of_mem _ hin
      exact absurd hbreak (by decide)
    have hbetween : bracketed? f.caption = some f.templateId.toList := by
      rw [caption_of_templateId_ne hid]
      exact bracketed?_append List.not_mem_nil hclose hline
    rw [templateIdOf, hbetween]
    refine List.filter_eq_self.mpr fun c hc => ?_
    have hopen : c ≠ '[' := by rintro rfl; exact (hf.templateId _ hc).1 (by decide)
    have hclosed : c ≠ ']' := by rintro rfl; exact (hf.templateId _ hc).1 (by decide)
    simp [hopen, hclosed]

/-- Without the template id, a caption is the name. -/
theorem eraseWord_caption (hf : f.IsWritable) :
    eraseWord ('[' :: f.templateId.toList ++ [']']) f.caption = f.name.toList := by
  have hname : ¬ '[' :: f.templateId.toList ++ [']'] <:+: f.name.toList := fun hin =>
    not_mem_of_isOrdinary (x := '[') (by decide) hf.name (hin.subset (by simp))
  by_cases hid : f.templateId = ""
  · rw [caption_of_templateId_eq hid]
    exact eraseWord_eq_self hname
  · rw [File.caption, if_neg hid, ← List.cons_append, eraseWord_append (by simp)]
    exact eraseWord_eq_self hname

/-! ### File lines -/

/-- A stripped file line, cut at its hyphens: the caption comes first, and what is last stands for the
    parameters. -/
structure Divides (f : File) (s : List Char) : Prop where
  left : left s = f.caption
  parameters : parametersOf s = f.parameters

theorem divides_bare (hf : f.IsWritable) (hp : f.parameters = none) : Divides f f.caption := by
  have hsegments : segments f.caption = [f.caption] := by
    rw [segments, pieces_eq_singleton (not_mem_caption hf (by decide))]
    simp [caption_ne_nil hf]
  constructor
  · rw [left, hsegments, List.headD_cons, strip_caption hf]
  · rw [parametersOf, hsegments]
    show Scope.ofJson? (strip f.caption) = f.parameters
    rw [strip_caption hf, hp]
    by_cases hid : f.templateId = ""
    · rw [caption_of_templateId_eq hid, hf.no_scope hp hid]
    · rw [caption_of_templateId_ne hid]
      exact Scope.ofJson?_cons_eq_none (by decide) (by decide) _

theorem divides_withParameters (hf : f.IsWritable) {s : Scope} (hp : f.parameters = some s) {a o : List Char}
    (ha : ∀ c ∈ a, isBlank c = true) (ho : strip o = o) (hyphen : '-' ∉ a ++ o)
    (hread : Scope.ofJson? o = some s) : Divides f (f.caption ++ ([' ', '-', ' '] ++ (a ++ o))) := by
  have hspace : ∀ c ∈ [' '], isBlank c = true := List.forall_mem_singleton.mpr (by decide)
  -- there is just one hyphen, the one between caption and parameters
  have hcut : pieces '-' (f.caption ++ ([' ', '-', ' '] ++ (a ++ o))) =
      [f.caption ++ [' '], ' ' :: (a ++ o)] := by
    have hl : '-' ∉ f.caption ++ [' '] := by simpa using not_mem_caption hf (by decide)
    have hr : '-' ∉ ' ' :: (a ++ o) := by simpa using hyphen
    rw [← pieces_eq_singleton hr, ← pieces_append_cons hl]
    simp
  have hsegments : segments (f.caption ++ ([' ', '-', ' '] ++ (a ++ o))) =
      [f.caption ++ [' '], ' ' :: (a ++ o)] := by
    rw [segments, hcut]
    simp
  constructor
  · rw [left, hsegments, List.headD_cons, strip_append_right hspace, strip_caption hf]
  · rw [parametersOf, hsegments]
    show Scope.ofJson? (strip ([' '] ++ (a ++ o))) = f.parameters
    rw [strip_append_left hspace, strip_append_left ha, ho, hread, hp]

/-- A line that divides into the parts of a file reads as that file, if it does not end in a colon. -/
theorem Divides.readsAsFile {s : List Char} (h : Divides f s) (hf : f.IsWritable) (hs : strip cs = s)
    (htabs : tabs cs = depth) (hcolon : s.getLast? ≠ some ':') : ReadsAsFile depth f (classify cs) := by
  have hfile : isFolder cs = false := by simpa [isFolder, hs] using hcolon
  rw [classify, if_neg (by simp [hfile])]
  refine ⟨rfl, htabs, ?_⟩
  rw [ofFile, hs]
  simp only [Builder.fileOf, fileName, h.left, h.parameters, templateIdOf_caption hf, eraseWord_caption hf,
    String.ofList_toList]

theorem isBlank_of_isJsonSpace {c : Char} (h : Json.isJsonSpace c = true) : isBlank c = true := by
  simp only [Json.isJsonSpace, Bool.or_eq_true, beq_iff_eq] at h
  rcases h with ((rfl | rfl) | rfl) | rfl <;> decide

/-- A caption with parameters behind it loses the white space behind them when it is stripped. -/
theorem strip_caption_append (hf : f.IsWritable) {a o b : List Char} (ho : o.getLast? = some '}')
    (hb : ∀ c ∈ b, isBlank c = true) :
    strip (f.caption ++ ([' ', '-', ' '] ++ (a ++ (o ++ b)))) = f.caption ++ ([' ', '-', ' '] ++ (a ++ o)) := by
  obtain ⟨c, -, hhead, hc, -⟩ := caption_ends hf
  have hstart : (f.caption ++ ([' ', '-', ' '] ++ (a ++ o))).head? = some c := by
    rw [List.head?_append, hhead]
    rfl
  have hend : (f.caption ++ ([' ', '-', ' '] ++ (a ++ o))).getLast? = some '}' := by
    simp [List.getLast?_append, List.getLast?_cons, ho]
  have hkeep := strip_eq_self_of_ends hstart hc hend (by decide)
  have hdrop := strip_append_right hb (f.caption ++ ([' ', '-', ' '] ++ (a ++ o)))
  simp only [List.append_assoc] at hdrop
  rw [hdrop, hkeep]

/-- **A file line reads as its file.** -/
theorem classify_of_isFileLine (hf : f.IsWritable) (h : File.IsFileLine depth f cs) :
    ReadsAsFile depth f (classify cs) := by
  cases h with
  | bare hp =>
    obtain ⟨-, d, -, -, hlast, -, hend⟩ := caption_ends hf
    have hcolon : f.caption.getLast? ≠ some ':' := by
      rw [hlast]
      rintro h
      obtain rfl := Option.some.inj h
      exact hend.elim (by decide) (hf.no_colon hp)
    have htab := tabs_replicate depth (not_mem_caption hf (x := '\t') (by decide))
    refine (divides_bare hf hp).readsAsFile hf ?_ htab hcolon
    rw [strip_tabs, strip_caption hf]
  | @withParameters s j hp hj hplain =>
    have htab : '\t' ∉ j := fun hm => (hplain _ hm).1 (by decide)
    have hyphen : '-' ∉ j := fun hm => (hplain _ hm).1 (by decide)
    -- stripping takes the white space behind the object and, later, that in front of it
    obtain ⟨a, o, b, ha, hb, rfl, hopen, hclose, hread⟩ := Scope.exists_braces_of_ofJson? hj
    have ho : strip o = o := strip_eq_self_of_ends hopen (by decide) hclose (by decide)
    have ha : ∀ c ∈ a, isBlank c = true := fun c hc => isBlank_of_isJsonSpace (ha c hc)
    have hb : ∀ c ∈ b, isBlank c = true := fun c hc => isBlank_of_isJsonSpace (hb c hc)
    have hcut : '-' ∉ a ++ o := fun hm => hyphen (by rw [← List.append_assoc]; exact List.mem_append_left b hm)
    refine (divides_withParameters hf hp ha ho hcut hread).readsAsFile hf ?_ (tabs_replicate depth ?_) ?_
    · rw [strip_tabs, strip_caption_append hf hclose hb]
    · have hl := not_mem_caption hf (x := '\t') (by decide)
      simpa [hl] using htab
    · simp [List.getLast?_append, List.getLast?_cons, hclose]

theorem isLine_of_isFileLine (hf : f.IsWritable) (h : File.IsFileLine depth f cs) : IsLine cs := by
  have hne : ∀ w, strip (f.caption ++ w) ≠ [] := by
    intro w
    obtain ⟨c, -, hhead, hc, -⟩ := caption_ends hf
    obtain ⟨l, hl⟩ := List.head?_eq_some_iff.mp hhead
    rw [hl]
    exact strip_cons_ne_nil hc _
  cases h with
  | bare hp =>
    refine ⟨unbroken_tabs depth (unbroken_caption hf), ?_⟩
    rw [strip_tabs, ← List.append_nil f.caption]
    exact hne []
  | withParameters hp hj hplain =>
    refine ⟨unbroken_tabs depth fun c hc => ?_, ?_⟩
    · rcases List.mem_append.mp hc with hc | hc
      · exact unbroken_caption hf c hc
      rcases List.mem_append.mp hc with hc | hc
      · simp only [List.mem_cons, List.not_mem_nil, or_false] at hc
        rcases hc with rfl | rfl | rfl <;> decide
      · exact (hplain c hc).2
    · rw [strip_tabs]
      exact hne _

end Line

end Stencil
