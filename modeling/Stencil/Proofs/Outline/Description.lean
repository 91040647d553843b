import Stencil.Proofs.Outline.FileLine
import Stencil.Proofs.Outline.Origins

/-!
# `Stencil.Proofs.Outline.Description` — the structure log tells the structure

The block that describes a folder holds the blocks of its subfolders, between brackets and with commas between them.
Names and template ids may hold brackets and commas, too, and even what looks like a block. Only a newline they cannot
hold, and this is enough to read the log in one way.

## Contents
- **Skeletons.** What a log tells of a folder: its name, the line of template ids, and the skeletons of its subfolders.
  Folders with the same skeleton have the same block (`describe_congr`).
- **Blocks.** A block is cancelled from the front of a text (`cancels`), and so are joined blocks, if what follows them
  is neither a block nor a separator (`blocks_append_inj`).
- **Names of lines.** The name and the template id of a line hold only what the line holds (`classify_subset`), and no
  line holds a newline.
- **Logs.** Two outlines have the same log if and only if they have the same skeletons (`describe_eq_iff`).
-/

namespace Stencil

open Text

/-! ## Skeletons -/

/-- What a structure log tells of a folder. -/
inductive Skeleton where
  /-- The name of the folder, the template ids of its files in one line, the skeletons of its subfolders. -/
  | mk (name ids : String) (folders : List Skeleton)

namespace Folder

/-- The template ids of files in one line. -/
def idLine (files : List File) : String := ", ".intercalate (files.map File.templateId)

mutual

/-- The skeleton of a folder. -/
def skeleton : Folder → Skeleton
  | .mk name files folders => .mk name (idLine files) (skeletons folders)

/-- The skeletons of several folders. -/
def skeletons : List Folder → List Skeleton
  | [] => []
  | f :: fs => skeleton f :: skeletons fs

end

mutual

/-- A block shows nothing but the skeleton. -/
theorem describe_congr : {f g : Folder} → skeleton f = skeleton g → describe f = describe g
  | .mk name files folders, .mk name' files' folders', h => by
    rw [skeleton, skeleton, Skeleton.mk.injEq] at h
    obtain ⟨rfl, hids, hfolders⟩ := h
    unfold idLine at hids
    rw [describe, describe, hids, describeAll_congr hfolders]

theorem describeAll_congr : {fs gs : List Folder} → skeletons fs = skeletons gs → describeAll fs = describeAll gs
  | [], [], _ => rfl
  | [], g :: gs, h => by simp [skeletons] at h
  | f :: fs, [], h => by simp [skeletons] at h
  | f :: fs, g :: gs, h => by
    rw [skeletons, skeletons, List.cons.injEq] at h
    rw [describeAll, describeAll, describe_congr h.1, describeAll_congr h.2]

end

/-- Neither the name of a folder nor a template id of its files holds a newline. -/
def IsUnbroken (f : Folder) : Prop := '\n' ∉ f.name.toList ∧ ∀ file ∈ f.files, '\n' ∉ file.templateId.toList

instance : DecidablePred IsUnbroken := fun _ => inferInstanceAs (Decidable (_ ∧ _))

/-! ## Blocks -/

/-- A line ends where it ends, whatever follows it. -/
theorem eq_of_append_newline {as bs r s : List Char} (ha : '\n' ∉ as) (hb : '\n' ∉ bs)
    (h : as ++ '\n' :: r = bs ++ '\n' :: s) : as = bs ∧ r = s := by
  induction as generalizing bs with
  | nil =>
    cases bs with
    | nil => exact ⟨rfl, (List.cons.inj h).2⟩
    | cons b bs =>
      obtain ⟨rfl, -⟩ := List.cons.inj h
      exact absurd List.mem_cons_self hb
  | cons a as ih =>
    cases bs with
    | nil =>
      obtain ⟨rfl, -⟩ := List.cons.inj h
      exact absurd List.mem_cons_self ha
    | cons b bs =>
      obtain ⟨rfl, htail⟩ := List.cons.inj h
      obtain ⟨rfl, rfl⟩ := ih (List.not_mem_of_not_mem_cons ha) (List.not_mem_of_not_mem_cons hb) htail
      exact ⟨rfl, rfl⟩

/-- The blocks of several folders with separators between them. -/
def blocks (sep : String) (fs : List Folder) : List Char := (sep.intercalate (describeAll fs)).toList

/-- The blocks of several folders, each behind a separator. -/
def laterBlocks (sep : String) (fs : List Folder) : List Char := fs.flatMap fun f => sep.toList ++ (describe f).toList

theorem blocks_cons (sep : String) (f : Folder) (fs : List Folder) :
    blocks sep (f :: fs) = (describe f).toList ++ laterBlocks sep fs := by
  induction fs generalizing f with
  | nil =>
    rw [blocks, describeAll, describeAll, String.intercalate_singleton]
    exact (List.append_nil _).symm
  | cons g gs ih =>
    rw [blocks, describeAll, describeAll, String.intercalate_cons_cons, ← describeAll, String.toList_append,
      String.toList_append]
    show (describe f).toList ++ sep.toList ++ blocks sep (g :: gs) = _
    rw [ih g, laterBlocks, laterBlocks, List.flatMap_cons, List.append_assoc, List.append_assoc]

theorem describe_append (name : String) (files : List File) (folders : List Folder) (r : List Char) :
    (describe (.mk name files folders)).toList ++ r =
      "Folder:".toList ++ (name.toList ++ '\n' :: ("Files:".toList ++
        ((idLine files).toList ++ '\n' :: ("SubFolders: [".toList ++
          (blocks ", " folders ++ ']' :: '\n' :: r))))) := by
  rw [describe]
  simp [blocks, idLine, -String.toList_intercalate]

theorem head?_describe (f : Folder) (r : List Char) : ((describe f).toList ++ r).head? = some 'F' := by
  cases f with
  | mk name files folders =>
    rw [describe_append]
    rfl

theorem not_mem_idLine {files : List File} (h : ∀ file ∈ files, '\n' ∉ file.templateId.toList) :
    '\n' ∉ (idLine files).toList := by
  induction files with
  | nil => simp [idLine]
  | cons file files ih =>
    rw [List.forall_mem_cons] at h
    cases files with
    | nil => simpa [idLine] using h.1
    | cons next files =>
      rw [idLine, List.map_cons, List.map_cons, String.intercalate_cons_cons, String.toList_append,
        String.toList_append, List.mem_append, List.mem_append]
      rintro ((hin | hin) | hin)
      · exact h.1 hin
      · exact absurd hin (by decide)
      · exact ih h.2 hin

variable {above above' : List String}

/-- The block of a folder is cancelled from the front of a text: whatever block the text begins with, it shows the same
    skeleton, and the same text follows. -/
def Cancels (f : Folder) : Prop :=
  ∀ {above above' : List String} {g : Folder} {r s : List Char}, (∀ p ∈ walk above f, p.2.IsUnbroken) →
    (∀ p ∈ walk above' g, p.2.IsUnbroken) → (describe f).toList ++ r = (describe g).toList ++ s →
    skeleton f = skeleton g ∧ r = s

section Joined

variable {sep : String} {r s : List Char} {fs gs : List Folder}

theorem laterBlocks_append_inj (hfs : ∀ f ∈ fs, Cancels f) (hf : ∀ p ∈ walkAll above fs, p.2.IsUnbroken)
    (hg : ∀ p ∈ walkAll above' gs, p.2.IsUnbroken) (hsep : sep.toList ≠ []) (hr : r.head? ≠ sep.toList.head?)
    (hs : s.head? ≠ sep.toList.head?) (h : laterBlocks sep fs ++ r = laterBlocks sep gs ++ s) :
    skeletons fs = skeletons gs ∧ r = s := by
  obtain ⟨c, cs, hc⟩ := List.exists_cons_of_ne_nil hsep
  -- folder by folder on both sides; one side cannot end where a separator stands on the other
  induction fs generalizing gs with
  | nil =>
    cases gs with
    | nil => exact ⟨rfl, h⟩
    | cons g gs =>
      refine absurd ?_ hr
      rw [show r = _ from h, laterBlocks, List.flatMap_cons, hc]
      rfl
  | cons f fs ih =>
    cases gs with
    | nil =>
      refine absurd ?_ hs
      rw [show s = _ from h.symm, laterBlocks, List.flatMap_cons, hc]
      rfl
    | cons g gs =>
      rw [List.forall_mem_cons] at hfs
      simp only [walkAll_cons, List.forall_mem_append] at hf hg
      simp only [laterBlocks, List.flatMap_cons, List.append_assoc] at h
      obtain ⟨hskeleton, hrest⟩ := hfs.1 hf.1 hg.1 (List.append_cancel_left h)
      obtain ⟨hskeletons, rfl⟩ := ih hfs.2 hf.2 hg.2 hrest
      rw [skeletons, skeletons, hskeleton, hskeletons]
      exact ⟨rfl, rfl⟩

theorem blocks_append_inj (hfs : ∀ f ∈ fs, Cancels f) (hf : ∀ p ∈ walkAll above fs, p.2.IsUnbroken)
    (hg : ∀ p ∈ walkAll above' gs, p.2.IsUnbroken) (hsep : sep.toList ≠ [])
    (hr : r.head? ≠ some 'F' ∧ r.head? ≠ sep.toList.head?) (hs : s.head? ≠ some 'F' ∧ s.head? ≠ sep.toList.head?)
    (h : blocks sep fs ++ r = blocks sep gs ++ s) : skeletons fs = skeletons gs ∧ r = s := by
  -- there are blocks on both sides or on neither, and then a separator may stand in front of the first
  suffices hlater : laterBlocks sep fs ++ r = laterBlocks sep gs ++ s from
    laterBlocks_append_inj hfs hf hg hsep hr.2 hs.2 hlater
  have hnil : blocks sep [] = [] := by
    rw [blocks, describeAll]
    rfl
  cases fs with
  | nil =>
    cases gs with
    | nil => exact List.append_cancel_left h ▸ rfl
    | cons g gs =>
      rw [hnil, List.nil_append, blocks_cons, List.append_assoc] at h
      exact absurd (h ▸ head?_describe g _) hr.1
  | cons f fs =>
    cases gs with
    | nil =>
      rw [hnil, List.nil_append, blocks_cons, List.append_assoc] at h
      exact absurd (h ▸ head?_describe f _) hs.1
    | cons g gs =>
      rw [blocks_cons, blocks_cons, List.append_assoc, List.append_assoc] at h
      simp only [laterBlocks, List.flatMap_cons, List.append_assoc]
      exact congrArg (sep.toList ++ ·) h

end Joined

theorem inductionOn {motive : Folder → Prop} (f : Folder)
    (mk : ∀ name files folders, (∀ f ∈ folders, motive f) → motive (.mk name files folders)) : motive f :=
  @Folder.rec motive (fun fs => ∀ f ∈ fs, motive f) mk (List.forall_mem_nil _)
    (fun _ _ hf hfs => List.forall_mem_cons.mpr ⟨hf, hfs⟩) f

/-- **A block is cancelled from the front of a text.** -/
theorem cancels (f : Folder) : Cancels f := by
  induction f using inductionOn with
  | mk name files folders ih =>
    intro above above' g r s hf hg h
    obtain ⟨name', files', folders'⟩ := g
    rw [walk, List.forall_mem_cons] at hf hg
    obtain ⟨⟨hnameF, hidsF⟩, hfoldersF⟩ := hf
    obtain ⟨⟨hnameG, hidsG⟩, hfoldersG⟩ := hg
    -- the name ends at the first newline and the line of ids at the second one; then the subfolders follow
    rw [describe_append, describe_append] at h
    obtain ⟨hname, h⟩ := eq_of_append_newline hnameF hnameG (List.append_cancel_left h)
    obtain ⟨hids, h⟩ :=
      eq_of_append_newline (not_mem_idLine hidsF) (not_mem_idLine hidsG) (List.append_cancel_left h)
    obtain ⟨hfolders, hrest⟩ := blocks_append_inj ih hfoldersF hfoldersG (by decide) (by simp) (by simp)
      (List.append_cancel_left h)
    have hname : name = name' := String.toList_inj.mp hname
    have hids : idLine files = idLine files' := String.toList_inj.mp hids
    rw [skeleton, skeleton, hname, hids, hfolders]
    exact ⟨rfl, (List.cons.inj (List.cons.inj hrest).2).2⟩

end Folder

/-! ## Names of lines -/

namespace Text

theorem eraseWord_subset (w cs : List Char) : eraseWord w cs ⊆ cs := by
  have hskip : ∀ skip, eraseWordFrom w skip cs ⊆ cs := by
    intro skip
    fun_induction eraseWordFrom w skip cs with
    | case1 => exact List.Subset.refl []
    | case2 skip c cs ih => exact List.Subset.trans ih (List.subset_cons_self c cs)
    | case3 c cs hw ih => exact List.Subset.trans ih (List.subset_cons_self c cs)
    | case4 c cs hw ih => exact List.cons_subset_cons c ih
  exact hskip 0

theorem eq_or_mem_of_mem_consLine {c d : Char} {l : List Char} {ls : List (List Char)} (hl : l ∈ consLine c ls)
    (hd : d ∈ l) : d = c ∨ ∃ m ∈ ls, d ∈ m := by
  cases ls with
  | nil =>
    rw [consLine, List.mem_singleton] at hl
    rw [hl, List.mem_singleton] at hd
    exact Or.inl hd
  | cons m ms =>
    rw [consLine] at hl
    obtain rfl | hl := List.mem_cons.mp hl
    · exact (List.mem_cons.mp hd).imp id fun hd => ⟨m, List.mem_cons_self, hd⟩
    · exact Or.inr ⟨l, List.mem_cons_of_mem m hl, hd⟩

theorem isLineBreak_eq_false_of_mem_lines {text l : List Char} {c : Char} (hl : l ∈ lines text) (hc : c ∈ l) :
    isLineBreak c = false := by
  fun_induction lines text generalizing l with
  | case1 => cases hl
  | case2 cs ih =>
    obtain rfl | hl := List.mem_cons.mp hl
    · cases hc
    · exact ih hl hc
  | case3 d cs hbreak hd ih =>
    obtain rfl | hl := List.mem_cons.mp hl
    · cases hc
    · exact ih hl hc
  | case4 d cs hbreak hd ih =>
    obtain rfl | ⟨m, hm, hc⟩ := eq_or_mem_of_mem_consLine hl hc
    · simpa using hd
    · exact ih hm hc

end Text

namespace Line

theorem bracketed?_subset {cs inner : List Char} (h : bracketed? cs = some inner) : inner ⊆ cs := by
  have hbefore : ∀ {ds as : List Char}, beforeLast? ']' ds = some as → as ⊆ ds := by
    intro ds as has
    unfold beforeLast? at has
    split at has
    · cases has
      intro c hc
      have hdrop := List.mem_of_mem_drop (List.mem_reverse.mp hc)
      exact List.mem_reverse.mp ((List.dropWhile_sublist _).subset hdrop)
    · cases has
  fun_induction bracketed? cs with
  | case1 => cases h
  | case2 cs inner' hinner =>
    cases h
    intro c hc
    exact List.mem_cons_of_mem _ ((List.takeWhile_sublist _).subset (hbefore hinner hc))
  | case3 cs hnone ih => exact List.Subset.trans (ih h) (List.subset_cons_self _ cs)
  | case4 c cs hc ih => exact List.Subset.trans (ih h) (List.subset_cons_self c cs)

theorem templateIdOf_subset (cs : List Char) : templateIdOf cs ⊆ cs := by
  rw [templateIdOf]
  split
  · next inner h => exact fun c hc => bracketed?_subset h (List.mem_filter.mp hc).1
  · exact List.nil_subset cs

theorem folderName_subset (cs : List Char) : folderName cs ⊆ cs := by
  have hdrop : (if (strip cs).getLast? = some ':' then (strip cs).dropLast else strip cs) ⊆ strip cs := by
    split
    · exact List.dropLast_subset _
    · exact List.Subset.refl _
  exact List.Subset.trans (strip_subset _) (List.Subset.trans hdrop (strip_subset cs))

/-- **What a line names holds only what the line holds.** -/
theorem classify_subset (cs : List Char) :
    (classify cs).name.toList ⊆ cs ∧ (classify cs).templateId.toList ⊆ cs := by
  rw [classify]
  split
  · simp only [ofFolder, String.toList_ofList]
    exact ⟨folderName_subset cs, List.Subset.trans (templateIdOf_subset _) (folderName_subset cs)⟩
  · simp only [ofFile, fileName, left_strip, String.toList_ofList]
    exact ⟨List.Subset.trans (eraseWord_subset _ _) (firstPiece_subset cs),
      List.Subset.trans (templateIdOf_subset _) (firstPiece_subset cs)⟩

end Line

/-! ## Logs -/

namespace Outline

/-- No name of a folder and no template id holds a newline. -/
def IsUnbroken (o : Outline) : Prop := ∀ p ∈ o.walk, p.2.IsUnbroken

instance : DecidablePred IsUnbroken := fun o => inferInstanceAs (Decidable (∀ p ∈ o.walk, p.2.IsUnbroken))

theorem newline_not_mem_of_mem_classifyFrom {text : List Char} {l : Line × Int}
    (h : l ∈ classifyFrom 1 (lines text)) : '\n' ∉ l.1.name.toList ∧ '\n' ∉ l.1.templateId.toList := by
  have hmem : l.1 ∈ (spoken (lines text)).map Line.classify := by
    rw [← map_fst_classifyFrom 1]
    exact List.mem_map_of_mem h
  obtain ⟨cs, hcs, hclassify⟩ := List.mem_map.mp hmem
  have hbreak : '\n' ∉ cs := by
    intro hin
    have hfalse := isLineBreak_eq_false_of_mem_lines (List.mem_filter.mp hcs).1 hin
    cases hfalse
  obtain ⟨hname, hid⟩ := Line.classify_subset cs
  rw [hclassify] at hname hid
  exact ⟨fun hin => hbreak (hname hin), fun hin => hbreak (hid hin)⟩

/-- **What is read from a document is unbroken.** -/
theorem isUnbroken_ofText (text : List Char) : (ofText text).IsUnbroken := by
  let ls := classifyFrom 1 (lines text)
  intro p hp
  obtain ⟨i, hi, hfolder⟩ := List.mem_map.mp ((folders_perm text).subset (List.mem_map_of_mem hp))
  rw [← hfolder, folderAt_eq]
  constructor
  · have hlt := (mem_placedOf.mp hi).1
    show '\n' ∉ (nameAt ls i).toList
    rw [nameAt, List.getElem?_eq_getElem hlt]
    exact (newline_not_mem_of_mem_classifyFrom (List.getElem_mem hlt)).1
  · intro file hfile
    obtain ⟨j, -, hj⟩ := List.mem_filterMap.mp hfile
    obtain ⟨l, hl, rfl⟩ := Option.map_eq_some_iff.mp hj
    exact (newline_not_mem_of_mem_classifyFrom (List.mem_of_getElem? hl)).2

/-- The skeletons of the root folders. -/
def skeletons (o : Outline) : List Skeleton := Folder.skeletons o.folders

/-- **A structure log is read in one way only.** It shows the skeletons of an outline and nothing else, if no name of a
    folder and no template id in it holds a newline; and none does in an outline that is read from a document. -/
theorem describe_eq_iff :
    (∀ o o' : Outline, o.IsUnbroken → o'.IsUnbroken → (o.describe = o'.describe ↔ o.skeletons = o'.skeletons)) ∧
      ∀ text, (ofText text).IsUnbroken := by
  refine ⟨fun o o' ho ho' => ⟨fun h => ?_, fun h => ?_⟩, isUnbroken_ofText⟩
  · have hblocks : Folder.blocks "\n" o.folders ++ [] = Folder.blocks "\n" o'.folders ++ [] :=
      congrArg (fun log => log.toList ++ []) h
    exact (Folder.blocks_append_inj (fun f _ => f.cancels) ho ho' (by decide) (by simp) (by simp) hblocks).1
  · exact congrArg ("\n".intercalate ·) (Folder.describeAll_congr h)

/-- Names with brackets, commas and the beginning of a block; two files that show the same ids as one. -/
theorem describe_eq_iff_brackets :
    let inner : Folder := .mk "[], Folder:" [] []
    let two : List File := [{ templateId := "s", name := "x" }, { templateId := "t", name := "y" }]
    let one : List File := [{ templateId := "s, t", name := "z" }]
    let o : Outline := { folders := [.mk "A]" two [inner, inner]] }
    let o' : Outline := { folders := [.mk "A]" one [inner, inner]] }
    o.IsUnbroken ∧ o'.IsUnbroken ∧ o.describe = o'.describe ∧ o.skeletons = o'.skeletons := by
  intro inner two one o o'
  have ho : o.IsUnbroken := by decide +kernel
  have ho' : o'.IsUnbroken := by decide +kernel
  have hlog : o.describe = o'.describe := by decide +kernel
  exact ⟨ho, ho', hlog, (describe_eq_iff.1 o o' ho ho').mp hlog⟩

end Outline

end Stencil
