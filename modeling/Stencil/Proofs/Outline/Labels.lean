import Stencil.Outline.Labels
import Stencil.Proofs.Manifest

/-!
# `Stencil.Proofs.Outline.Labels` — the printed tree of an outline

## Contents
- **Trees.** `LabelTree.subtrees` lists a tree and all trees below it, each before those below it.
- **Escaped texts.** An escaped text does not start with a tag, so a tree is that of a folder just if its label starts
  in bold blue.
- **Folders and files.** The trees of folders come in the order of the walk, the others in that of the climb.
- **The tree of an outline.** It shows the folders and files that the manifest lists, in the same order
  (`shows_labels`).
-/

namespace Stencil

open Console Text

/-! ## Trees -/

namespace Console.LabelTree

/-- The label at the top of a tree. -/
def label : LabelTree → String
  | .node label _ => label

mutual

/-- A tree and all trees below it, each before those below it. -/
def subtrees : LabelTree → List LabelTree
  | .node label children => .node label children :: subtreesAll children

/-- The subtrees of several trees, one after the other. -/
def subtreesAll : List LabelTree → List LabelTree
  | [] => []
  | t :: ts => subtrees t ++ subtreesAll ts

end

theorem subtreesAll_append (ts us : List LabelTree) :
    subtreesAll (ts ++ us) = subtreesAll ts ++ subtreesAll us := by
  induction ts with
  | nil => rw [subtreesAll, List.nil_append, List.nil_append]
  | cons t ts ih => rw [List.cons_append, subtreesAll, subtreesAll, ih, List.append_assoc]

/-- There is nothing below a leaf. -/
theorem subtreesAll_leaves {α : Type} (labelFor : α → String) (xs : List α) :
    subtreesAll (xs.map fun x => .node (labelFor x) []) = xs.map fun x => .node (labelFor x) [] := by
  induction xs with
  | nil => rw [List.map_nil, subtreesAll]
  | cons x xs ih =>
    rw [List.map_cons, subtreesAll, subtrees, subtreesAll, ih]
    rfl

/-- Whether a tree is labelled as that of a folder, in bold blue. -/
def isFolder (t : LabelTree) : Bool := "[bold blue]".toList.isPrefixOf t.label.toList

end Console.LabelTree

/-! ## Escaped texts -/

namespace Text

/-- Whether a text starts with a tag. -/
def startsTag : List Char → Bool
  | '[' :: cs => continuesTag cs
  | _ => false

/-- What may stand behind an escaped text without closing a tag there: nothing, or a blank or a backslash at first
    and no bracket that closes before one that opens. -/
structure IsApart (tail : List Char) : Prop where
  first : ∀ c cs, tail = c :: cs → c = ' ' ∨ c = '\\'
  closed : ']' ∉ tail.takeWhile (· != '[')

theorem isApart_nil : IsApart [] := ⟨nofun, List.not_mem_nil⟩

theorem isApart_blank (cs : List Char) : IsApart (' ' :: '[' :: cs) := by
  refine ⟨?_, by simp⟩
  rintro c ds ⟨⟩
  exact .inl rfl

theorem IsApart.backslash {tail : List Char} (h : IsApart tail) : IsApart ('\\' :: tail) := by
  refine ⟨?_, by simpa using h.closed⟩
  rintro c ds ⟨⟩
  exact .inr rfl

theorem escapeTags_succ (n : Nat) (cs : List Char) : ∃ ds, escapeTags (n + 1) cs = '\\' :: ds := by
  induction cs generalizing n with
  | nil => exact ⟨List.replicate n '\\', rfl⟩
  | cons c cs ih =>
    rw [escapeTags]
    split
    · exact ih (n + 1)
    · split
      · exact ⟨_, rfl⟩
      · exact ⟨_, rfl⟩

theorem takeWhile_backslashes (n : Nat) (cs : List Char) :
    (List.replicate n '\\' ++ cs).takeWhile (· != '[') = List.replicate n '\\' ++ cs.takeWhile (· != '[') :=
  List.takeWhile_append_of_pos fun c hc => by simp [List.eq_of_mem_replicate hc]

theorem not_mem_backslashes (n : Nat) : ']' ∉ List.replicate n '\\' := by simp [List.mem_replicate]

/-- Escaping lets nothing be closed that was open before. -/
theorem closed_of_escapeTags {tail : List Char} (htail : IsApart tail) {n : Nat} {cs : List Char}
    (h : ']' ∈ (escapeTags n cs ++ tail).takeWhile (· != '[')) : ']' ∈ cs.takeWhile (· != '[') := by
  induction cs generalizing n with
  | nil =>
    rw [escapeTags, takeWhile_backslashes] at h
    rcases List.mem_append.mp h with h | h
    · exact absurd h (not_mem_backslashes n)
    · exact absurd h htail.closed
  | cons c cs ih =>
    by_cases hopen : c = '['
    · -- nothing but backslashes comes before the bracket that opens
      obtain ⟨m, ds, hescaped⟩ : ∃ m ds, escapeTags n (c :: cs) = List.replicate m '\\' ++ '[' :: ds := by
        rw [hopen, escapeTags, if_neg (by decide)]
        split
        · exact ⟨_, _, rfl⟩
        · exact ⟨_, _, rfl⟩
      rw [hescaped, List.append_assoc, takeWhile_backslashes, List.cons_append,
        List.takeWhile_cons_of_neg (by decide), List.append_nil] at h
      exact absurd h (not_mem_backslashes m)
    · have hpass : (c != '[') = true := by simpa using hopen
      rw [List.takeWhile_cons_of_pos (p := (· != '[')) hpass]
      by_cases hback : c = '\\'
      · rw [escapeTags, if_pos hback] at h
        exact List.mem_cons_of_mem c (ih h)
      · rw [escapeTags, if_neg hback, if_neg (by simp [hopen]), List.append_assoc, takeWhile_backslashes,
          List.cons_append, List.takeWhile_cons_of_pos (p := (· != '[')) hpass] at h
        rcases List.mem_append.mp h with h | h
        · exact absurd h (not_mem_backslashes n)
        · rcases List.mem_cons.mp h with rfl | h
          · exact List.mem_cons_self
          · exact List.mem_cons_of_mem c (ih h)

theorem continuesTag_cons {c : Char} {cs : List Char} :
    continuesTag (c :: cs) = true ↔ isTagStart c = true ∧ ']' ∈ cs.takeWhile (· != '[') := by
  rw [continuesTag, Bool.and_eq_true, List.contains_iff_mem]

/-- What stands apart continues no tag. -/
theorem IsApart.not_continuesTag {tail : List Char} (h : IsApart tail) : ¬ continuesTag tail = true := by
  cases tail with
  | nil => decide
  | cons c cs =>
    rw [continuesTag_cons]
    rcases h.first c cs rfl with rfl | rfl
    · exact fun hc => absurd hc.1 (by decide)
    · exact fun hc => absurd hc.1 (by decide)

/-- A text that continues a tag once it is escaped does so before. -/
theorem continuesTag_of_escapeTags {tail : List Char} (htail : IsApart tail) {cs : List Char}
    (h : continuesTag (escapeTags 0 cs ++ tail) = true) : continuesTag cs = true := by
  cases cs with
  | nil => exact absurd h htail.not_continuesTag
  | cons c cs =>
    rw [escapeTags] at h
    split at h
    · -- a backslash starts no tag
      obtain ⟨ds, hds⟩ := escapeTags_succ 0 cs
      rw [hds, List.cons_append, continuesTag_cons] at h
      exact absurd h.1 (by decide)
    · split at h
      · exact absurd (continuesTag_cons.mp h).1 (by decide)
      · obtain ⟨hstart, hclosed⟩ := continuesTag_cons.mp h
        exact continuesTag_cons.mpr ⟨hstart, closed_of_escapeTags htail hclosed⟩

/-- **An escaped text does not start with a tag**, whatever stands apart behind it. -/
theorem not_startsTag_escapeTags {tail : List Char} (htail : IsApart tail) (cs : List Char) :
    ¬ startsTag (escapeTags 0 cs ++ tail) = true := by
  have hback : ∀ ds, ¬ startsTag ('\\' :: ds) = true := fun ds => Bool.false_ne_true
  cases cs with
  | nil =>
    cases tail with
    | nil => decide
    | cons c cs =>
      rcases htail.first c cs rfl with rfl | rfl
      · exact Bool.false_ne_true
      · exact hback cs
  | cons c cs =>
    rw [escapeTags]
    split
    · obtain ⟨ds, hds⟩ := escapeTags_succ 0 cs
      rw [hds]
      exact hback _
    · split
      · exact hback _
      · next hopens =>
        by_cases hc : c = '['
        · have hcontinues : ¬ continuesTag cs = true := by simpa [hc] using hopens
          rw [hc]
          exact fun h => hcontinues (continuesTag_of_escapeTags htail h)
        · intro h
          simp [startsTag, hc] at h

theorem doubleLast_eq (cs : List Char) : doubleLast cs = cs ∨ doubleLast cs = cs ++ ['\\'] := by
  unfold doubleLast
  split
  · exact .inl rfl
  · exact .inr rfl
  · exact .inl rfl

end Text

/-! ## Folders and files -/

/-- A tree is that of a folder only if its label starts with a tag. -/
theorem Console.LabelTree.startsTag_of_isFolder {t : LabelTree} (h : t.isFolder = true) :
    Text.startsTag t.label.toList = true := by
  obtain ⟨rest, hrest⟩ := List.isPrefixOf_iff_prefix.mp h
  rw [← hrest]
  show continuesTag ('b' :: ("old blue]".toList ++ rest)) = true
  rw [continuesTag_cons]
  refine ⟨by decide, ?_⟩
  have hpass : ∀ c ∈ "old blue]".toList, (c != '[') = true := by simp
  rw [List.takeWhile_append_of_pos hpass]
  exact List.mem_append_left _ (by decide)

/-- The tree of a file, with nothing below it. -/
def File.leaf (f : File) : LabelTree := .node f.label []

/-- The label of a file is its name, escaped, with nothing behind it that closes a tag. -/
theorem File.label_eq (f : File) :
    ∃ tail, IsApart tail ∧ f.label.toList = escapeTags 0 f.name.toList ++ tail := by
  obtain ⟨rest, hrest, hlabel⟩ : ∃ rest, (rest = [] ∨ ∃ cs, rest = ' ' :: '[' :: cs) ∧
      f.label.toList = doubleLast (escapeTags 0 f.name.toList) ++ rest := by
    unfold label
    split
    · exact ⟨[], .inl rfl, by simp [escapeMarkup]⟩
    · exact ⟨_, .inr ⟨_, rfl⟩, by simp [escapeMarkup, tagged]; rfl⟩
  have hapart : IsApart rest := by
    rcases hrest with rfl | ⟨cs, rfl⟩
    · exact isApart_nil
    · exact isApart_blank cs
  rcases doubleLast_eq (escapeTags 0 f.name.toList) with hsame | hdoubled
  · exact ⟨rest, hapart, by rw [hlabel, hsame]⟩
  · exact ⟨'\\' :: rest, hapart.backslash, by rw [hlabel, hdoubled, List.append_assoc]; rfl⟩

/-- **The tree of a file is not taken for that of a folder**, whatever the name of the file. -/
theorem File.not_isFolder_leaf (f : File) : f.leaf.isFolder = false := by
  obtain ⟨tail, htail, hlabel⟩ := f.label_eq
  rw [Bool.eq_false_iff]
  intro h
  have hstarts := LabelTree.startsTag_of_isFolder h
  rw [leaf, LabelTree.label, hlabel] at hstarts
  exact not_startsTag_escapeTags htail _ hstarts

namespace Folder

theorem labels_eq (f : Folder) :
    f.labels = .node (labelOf f.name) (labelsAll f.folders ++ f.files.map File.leaf) := by
  cases f with
  | mk name files folders => rw [labels]; rfl

theorem labelsAll_eq_map (fs : List Folder) : labelsAll fs = fs.map labels := by
  induction fs with
  | nil => rw [labelsAll, List.map_nil]
  | cons f fs ih => rw [labelsAll, ih, List.map_cons]

theorem isFolder_labels (f : Folder) : f.labels.isFolder = true := by
  rw [labels_eq, LabelTree.isFolder, List.isPrefixOf_iff_prefix]
  exact ⟨_, by simp [LabelTree.label, labelOf, tagged]; rfl⟩

/-- Below the tree of a folder are the trees of its subfolders, with what is below them, and then its files. -/
theorem subtrees_labels (name : String) (files : List File) (folders : List Folder) :
    (labels (.mk name files folders)).subtrees =
      labels (.mk name files folders) :: (LabelTree.subtreesAll (labelsAll folders) ++ files.map File.leaf) := by
  rw [labels, LabelTree.subtrees, LabelTree.subtreesAll_append]
  congr 2
  exact LabelTree.subtreesAll_leaves File.label files

mutual

/-- The trees of folders come in the order of the walk. -/
theorem filter_isFolder_subtrees (above : List String) : (f : Folder) →
    f.labels.subtrees.filter LabelTree.isFolder = (walk above f).map fun p => p.2.labels
  | .mk name files folders => by
    have hfiles : (files.map File.leaf).filter LabelTree.isFolder = [] := by
      rw [List.filter_eq_nil_iff]
      intro t ht
      obtain ⟨f, -, rfl⟩ := List.mem_map.mp ht
      rw [f.not_isFolder_leaf]
      exact Bool.false_ne_true
    rw [subtrees_labels, List.filter_cons_of_pos (isFolder_labels _), List.filter_append, hfiles, List.append_nil,
      filter_isFolder_subtreesAll (above ++ [name]) folders, walk, List.map_cons]

theorem filter_isFolder_subtreesAll (above : List String) : (fs : List Folder) →
    (LabelTree.subtreesAll (labelsAll fs)).filter LabelTree.isFolder = (walkAll above fs).map fun p => p.2.labels
  | [] => by rw [labelsAll, LabelTree.subtreesAll, walkAll_nil, List.filter_nil, List.map_nil]
  | f :: fs => by
    rw [labelsAll, LabelTree.subtreesAll, List.filter_append, walkAll_cons, List.map_append,
      filter_isFolder_subtrees above f, filter_isFolder_subtreesAll above fs]

end

mutual

/-- The trees of files come in the order of the climb. -/
theorem filter_not_isFolder_subtrees (above : List String) : (f : Folder) →
    f.labels.subtrees.filter (fun t => !t.isFolder) = (climb above f).flatMap fun p => p.2.files.map File.leaf
  | .mk name files folders => by
    have hfiles : (files.map File.leaf).filter (fun t => !t.isFolder) = files.map File.leaf := by
      rw [List.filter_eq_self]
      intro t ht
      obtain ⟨f, -, rfl⟩ := List.mem_map.mp ht
      rw [f.not_isFolder_leaf]
      rfl
    rw [subtrees_labels, List.filter_cons_of_neg (by simp [isFolder_labels]), List.filter_append, hfiles,
      filter_not_isFolder_subtreesAll (above ++ [name]) folders, climb, List.flatMap_append, List.flatMap_singleton]
    rfl

theorem filter_not_isFolder_subtreesAll (above : List String) : (fs : List Folder) →
    (LabelTree.subtreesAll (labelsAll fs)).filter (fun t => !t.isFolder) =
      (climbAll above fs).flatMap fun p => p.2.files.map File.leaf
  | [] => by rw [labelsAll, LabelTree.subtreesAll, climbAll, List.filter_nil, List.flatMap_nil]
  | f :: fs => by
    rw [labelsAll, LabelTree.subtreesAll, List.filter_append, climbAll, List.flatMap_append,
      filter_not_isFolder_subtrees above f, filter_not_isFolder_subtreesAll above fs]

end

end Folder

/-! ## The tree of an outline -/

namespace Outline

/-- The files of an outline in the order of the walk, each with the names that lead to its folder. -/
def filesBelow (o : Outline) : List (List String × File) := o.walk.flatMap fun p => p.2.files.map (p.1, ·)

/-- What a tree shows of an outline, and what a manifest lists of it. Below the title are the trees of the root folders.
    The trees that are labelled as folders are those of the folders in the order of the walk, each with the trees of
    its subfolders below it and then its files; the other trees below the title are those of the files, in the order in
    which the manifest lists their paths; and there is nothing else. -/
structure Shows (s : Settings) (o : Outline) (t : LabelTree) : Prop where
  roots : ∃ title, t = .node (tagged "bold" title) (o.folders.map Folder.labels)
  folders : t.subtrees.filter LabelTree.isFolder = o.walk.map fun p =>
    .node (Folder.labelOf p.2.name) (p.2.folders.map Folder.labels ++ p.2.files.map File.leaf)
  files : ∃ es : List (List String × File), es.Perm o.filesBelow ∧
    t.subtrees.tail.filter (fun t => !t.isFolder) = es.map (fun e => e.2.leaf) ∧
    (Manifest.ofOutline s o).allFiles = es.map fun e => (s.relativePath e.1 / s.fileName e.2).text
  size : t.subtrees.length = 1 + o.folderCount + o.fileCount

theorem length_filesBelow (o : Outline) : o.filesBelow.length = o.fileCount :=
  o.length_flatMap_walk fun _ => List.length_map _

/-- A title is not taken for a folder. -/
theorem not_isFolder_title (o : Outline) (title : String) : (o.labels title).isFolder = false := by
  simp only [labels, LabelTree.isFolder, LabelTree.label, tagged, String.toList_append]
  rfl

theorem subtrees_labels (o : Outline) (title : String) :
    (o.labels title).subtrees = o.labels title :: LabelTree.subtreesAll (Folder.labelsAll o.folders) := by
  rw [labels, LabelTree.subtrees]

/-- **The printed tree and the manifest list the same, in the same order.** -/
theorem shows_labels (s : Settings) (o : Outline) (title : String) : Shows s o (o.labels title) := by
  have hfolders := Folder.filter_isFolder_subtreesAll [] o.folders
  have hfiles := Folder.filter_not_isFolder_subtreesAll [] o.folders
  have hclimb : ((Folder.climbAll [] o.folders).flatMap fun p => p.2.files.map (p.1, ·)).Perm o.filesBelow :=
    (Folder.climbAll_perm_walkAll [] o.folders).flatMap_right _
  have hshown : (Folder.climbAll [] o.folders).flatMap (fun p => p.2.files.map File.leaf) =
      ((Folder.climbAll [] o.folders).flatMap fun p => p.2.files.map (p.1, ·)).map fun e => e.2.leaf := by
    rw [List.map_flatMap]
    refine List.flatMap_congr fun p _ => ?_
    rw [List.map_map]
    rfl
  constructor
  · refine ⟨title, ?_⟩
    rw [labels, Folder.labelsAll_eq_map]
  · rw [subtrees_labels, List.filter_cons_of_neg (by rw [not_isFolder_title]; exact Bool.false_ne_true), hfolders]
    refine List.map_congr_left fun p _ => ?_
    rw [Folder.labels_eq, Folder.labelsAll_eq_map]
  · refine ⟨_, hclimb, ?_, ?_⟩
    · rw [subtrees_labels, List.tail_cons, hfiles, hshown]
    · rw [Manifest.allFiles_ofOutline, List.map_flatMap]
      refine List.flatMap_congr fun p _ => ?_
      rw [List.map_map, Function.comp_def]
  · -- each tree below the title is that of a folder or that of a file
    have hsplit := List.length_eq_length_filter_add (l := LabelTree.subtreesAll (Folder.labelsAll o.folders))
      LabelTree.isFolder
    rw [hfolders, hfiles, hshown, List.length_map, List.length_map, hclimb.length_eq, length_filesBelow] at hsplit
    rw [subtrees_labels, List.length_cons, hsplit]
    show o.folderCount + o.fileCount + 1 = _
    omega

end Outline

end Stencil
