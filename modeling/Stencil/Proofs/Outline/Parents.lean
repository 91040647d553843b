import Mathlib.Data.List.Induction
import Stencil.Proofs.Outline.Drafts

/-!
# `Stencil.Proofs.Outline.Parents` — the outline that the parents of its lines make

A line of an outline belongs to the latest folder line before it that is one level shallower: its
parent. This module says what an outline is in terms of parents alone (`Outline.ofParents`), without
drafts, numbers of drafts or a map of depths, and shows that this is what a `Builder` builds.

## Contents
- **Parents.** `parent?`, the lines that have a given parent, the root folders, and the lines that
  are lost. `folderAt` is the folder that a folder line makes.
- **More lines.** What comes behind a line has no part in what is said about it; what each of these is when
  one line is put behind.
- **Agreement.** `Builder.Agrees` relates a builder to the lines it has taken: the drafts are the
  folder lines, numbered in order (`rank`). One step keeps it, so every run does.
- **Building.** `build_addAll`, the outline of every list of lines.
-/

namespace Stencil

namespace Outline

/-! ## Parents -/

/-- Whether the line at a position is of a kind. -/
def isAt (ls : List (Line × Int)) (kind : Kind) (i : Nat) : Bool :=
  ls[i]?.any fun l => l.1.kind = kind

/-- Whether the line at a position is a folder line of a depth. -/
def opensAt (ls : List (Line × Int)) (depth i : Nat) : Bool :=
  ls[i]?.any fun l => l.1.kind = .folder ∧ l.1.depth = depth

/-- The latest folder line of a depth before a position. -/
def latestBefore? (ls : List (Line × Int)) (depth j : Nat) : Option Nat :=
  ((List.range j).filter (opensAt ls depth)).getLast?

/-- The latest folder line before a position that is one level shallower than a depth. -/
def enclosingBefore? (ls : List (Line × Int)) (depth j : Nat) : Option Nat :=
  match depth with
  | 0 => none
  | above + 1 => latestBefore? ls above j

/-- The parent of the line at a position. -/
def parent? (ls : List (Line × Int)) (j : Nat) : Option Nat :=
  ls[j]?.bind fun l => enclosingBefore? ls l.1.depth j

/-- The lines of a kind whose parent is the line at a position. -/
def childrenOf (ls : List (Line × Int)) (kind : Kind) (i : Nat) : List Nat :=
  (List.range ls.length).filter fun j => isAt ls kind j ∧ parent? ls j = some i

/-- The folder lines of depth 0. -/
def rootsOf (ls : List (Line × Int)) : List Nat := (List.range ls.length).filter (opensAt ls 0)

/-- The lines without a parent, folder lines of depth 0 apart. -/
def lostOf (ls : List (Line × Int)) : List Nat :=
  (List.range ls.length).filter fun j => parent? ls j = none ∧ ¬ opensAt ls 0 j

/-- The name in the line at a position. -/
def nameAt (ls : List (Line × Int)) (i : Nat) : String := (ls[i]?.map fun l => l.1.name).getD ""

/-- The file that the line at a position names. -/
def fileAt? (ls : List (Line × Int)) (i : Nat) : Option File := ls[i]?.map fun l => Builder.fileOf l.1

/-- The drop of the line at a position. -/
def dropAt? (ls : List (Line × Int)) (i : Nat) : Option Drop :=
  ls[i]?.map fun l => ⟨l.2, l.1.kind, l.1.name, l.1.depth⟩

/-- A latest line before a position is before it, and is a folder line of the depth. -/
theorem latestBefore?_eq_some {ls : List (Line × Int)} {depth j i : Nat}
    (h : latestBefore? ls depth j = some i) : i < j ∧ opensAt ls depth i = true := by
  have hm : i ∈ (List.range j).filter (opensAt ls depth) := List.mem_of_getLast? h
  rw [List.mem_filter, List.mem_range] at hm
  exact hm

theorem lt_of_enclosingBefore? {ls : List (Line × Int)} {depth j i : Nat}
    (h : enclosingBefore? ls depth j = some i) : i < j := by
  cases depth with
  | zero => simp [enclosingBefore?] at h
  | succ above => exact (latestBefore?_eq_some h).1

theorem lt_of_parent? {ls : List (Line × Int)} {i j : Nat} (h : parent? ls j = some i) : i < j := by
  obtain ⟨l, _, hl⟩ := Option.bind_eq_some_iff.mp h
  exact lt_of_enclosingBefore? hl

theorem mem_childrenOf {ls : List (Line × Int)} {kind : Kind} {i j : Nat} :
    j ∈ childrenOf ls kind i ↔ j < ls.length ∧ isAt ls kind j = true ∧ parent? ls j = some i := by
  simp [childrenOf]

/-- The folder that the folder line at a position makes: its files are the file lines with this parent,
    its subfolders are made by the folder lines with this parent. -/
def folderAt (ls : List (Line × Int)) (i : Nat) : Folder :=
  .mk (nameAt ls i) ((childrenOf ls .file i).filterMap (fileAt? ls))
    ((childrenOf ls .folder i).attach.map fun j => folderAt ls j.1)
termination_by ls.length - i
decreasing_by
  have hj := mem_childrenOf.mp j.2
  have := lt_of_parent? hj.2.2
  omega

/-- The outline that the parents of its lines make. -/
def ofParents (ls : List (Line × Int)) : Outline where
  folders := (rootsOf ls).map (folderAt ls)
  dropped := ((lostOf ls).filterMap (dropAt? ls)).map Drop.message

theorem folderAt_eq (ls : List (Line × Int)) (i : Nat) :
    folderAt ls i = .mk (nameAt ls i) ((childrenOf ls .file i).filterMap (fileAt? ls))
      ((childrenOf ls .folder i).map (folderAt ls)) := by
  rw [folderAt, List.attach_map_val (f := folderAt ls)]

/-! ## More lines -/

variable {ls : List (Line × Int)}

theorem isAt_append {i : Nat} (h : i < ls.length) (ms : List (Line × Int)) (kind : Kind) :
    isAt (ls ++ ms) kind i = isAt ls kind i := by
  rw [isAt, isAt, List.getElem?_append_left h]

theorem isAt_length (ls : List (Line × Int)) (l : Line × Int) (kind : Kind) :
    isAt (ls ++ [l]) kind ls.length = decide (l.1.kind = kind) := by
  simp [isAt]

theorem opensAt_append {i : Nat} (h : i < ls.length) (ms : List (Line × Int)) (depth : Nat) :
    opensAt (ls ++ ms) depth i = opensAt ls depth i := by
  rw [opensAt, opensAt, List.getElem?_append_left h]

theorem nameAt_append {i : Nat} (h : i < ls.length) (ms : List (Line × Int)) : nameAt (ls ++ ms) i = nameAt ls i := by
  rw [nameAt, nameAt, List.getElem?_append_left h]

theorem fileAt?_append {i : Nat} (h : i < ls.length) (ms : List (Line × Int)) :
    fileAt? (ls ++ ms) i = fileAt? ls i := by
  rw [fileAt?, fileAt?, List.getElem?_append_left h]

theorem dropAt?_append {i : Nat} (h : i < ls.length) (ms : List (Line × Int)) :
    dropAt? (ls ++ ms) i = dropAt? ls i := by
  rw [dropAt?, dropAt?, List.getElem?_append_left h]

theorem opensAt_length (ls : List (Line × Int)) (l : Line × Int) (depth : Nat) :
    opensAt (ls ++ [l]) depth ls.length = decide (l.1.kind = .folder ∧ l.1.depth = depth) := by
  simp [opensAt]

/-- The lines before a position decide what was opened latest before it. -/
theorem latestBefore?_append {j : Nat} (h : j ≤ ls.length) (ms : List (Line × Int)) (depth : Nat) :
    latestBefore? (ls ++ ms) depth j = latestBefore? ls depth j := by
  rw [latestBefore?, latestBefore?]
  congr 1
  refine List.filter_congr fun i hi => opensAt_append ?_ ms depth
  have := List.mem_range.mp hi
  omega

theorem latestBefore?_length_succ (ls : List (Line × Int)) (l : Line × Int) (depth : Nat) :
    latestBefore? (ls ++ [l]) depth (ls.length + 1) =
      if l.1.kind = .folder ∧ l.1.depth = depth then some ls.length
      else latestBefore? ls depth ls.length := by
  rw [← latestBefore?_append (Nat.le_refl _) [l], latestBefore?, latestBefore?, List.range_succ,
    List.filter_append, List.filter_cons, List.filter_nil, opensAt_length]
  split <;> simp_all

theorem enclosingBefore?_append {j : Nat} (h : j ≤ ls.length) (ms : List (Line × Int)) (depth : Nat) :
    enclosingBefore? (ls ++ ms) depth j = enclosingBefore? ls depth j := by
  cases depth with
  | zero => rfl
  | succ above => exact latestBefore?_append h ms above

/-- A parent is decided by the lines before. -/
theorem parent?_append {j : Nat} (h : j < ls.length) (ms : List (Line × Int)) :
    parent? (ls ++ ms) j = parent? ls j := by
  rw [parent?, parent?, List.getElem?_append_left h]
  exact congrArg _ (funext fun k => enclosingBefore?_append (Nat.le_of_lt h) ms _)

theorem parent?_length (ls : List (Line × Int)) (l : Line × Int) :
    parent? (ls ++ [l]) ls.length = enclosingBefore? ls l.1.depth ls.length := by
  simp [parent?, enclosingBefore?_append (Nat.le_refl _)]

/-- The positions in a list with one line more that have a property, which only the lines up to them decide. -/
theorem filter_range_append {p q : Nat → Bool} (l : Line × Int) (h : ∀ i < ls.length, p i = q i) :
    (List.range (ls ++ [l]).length).filter p =
      (List.range ls.length).filter q ++ if p ls.length then [ls.length] else [] := by
  rw [List.length_append, List.length_singleton, List.range_succ, List.filter_append, List.filter_cons,
    List.filter_nil]
  congr 1
  exact List.filter_congr fun i hi => h i (List.mem_range.mp hi)

theorem rootsOf_append (ls : List (Line × Int)) (l : Line × Int) :
    rootsOf (ls ++ [l]) =
      rootsOf ls ++ if l.1.kind = .folder ∧ l.1.depth = 0 then [ls.length] else [] := by
  rw [rootsOf, filter_range_append l fun i hi => opensAt_append hi [l] 0, opensAt_length]
  simp [rootsOf]

theorem lostOf_append (ls : List (Line × Int)) (l : Line × Int) :
    lostOf (ls ++ [l]) =
      lostOf ls ++ if enclosingBefore? ls l.1.depth ls.length = none ∧ ¬ (l.1.kind = .folder ∧ l.1.depth = 0)
        then [ls.length] else [] := by
  rw [lostOf, filter_range_append l (q := fun j => parent? ls j = none ∧ ¬ opensAt ls 0 j), parent?_length,
    opensAt_length]
  · simp [lostOf, imp_iff_not_or]
  · intro i hi
    rw [parent?_append hi, opensAt_append hi]

theorem childrenOf_append (ls : List (Line × Int)) (l : Line × Int) (kind : Kind) (i : Nat) :
    childrenOf (ls ++ [l]) kind i =
      childrenOf ls kind i ++
        if l.1.kind = kind ∧ enclosingBefore? ls l.1.depth ls.length = some i then [ls.length] else [] := by
  rw [childrenOf, filter_range_append l (q := fun j => isAt ls kind j ∧ parent? ls j = some i), parent?_length,
    isAt_length]
  · simp [childrenOf]
  · intro j hj
    rw [parent?_append hj, isAt_append hj]

/-! ## Agreement -/

/-- The folder lines. -/
def foldersOf (ls : List (Line × Int)) : List Nat := (List.range ls.length).filter (isAt ls .folder)

/-- How many folder lines there are before a position. -/
def rank (ls : List (Line × Int)) (i : Nat) : Nat := ((List.range i).filter (isAt ls .folder)).length

/-- The draft of the folder line at a position. -/
def draftAt (ls : List (Line × Int)) (i : Nat) : Draft where
  name := nameAt ls i
  files := (childrenOf ls .file i).filterMap (fileAt? ls)
  children := (childrenOf ls .folder i).map (rank ls)

theorem mem_foldersOf {i : Nat} : i ∈ foldersOf ls ↔ i < ls.length ∧ isAt ls .folder i = true := by
  simp [foldersOf]

theorem isAt_of_opensAt {depth i : Nat} (h : opensAt ls depth i = true) :
    i < ls.length ∧ isAt ls .folder i = true := by
  obtain ⟨l, hl, hp⟩ := (Option.any_eq_true _ _).mp h
  refine ⟨(List.getElem?_eq_some_iff.mp hl).1, ?_⟩
  have hk : l.1.kind = .folder := (by simpa using hp : _ ∧ _).1
  simp [isAt, hl, hk]

theorem mem_foldersOf_of_enclosingBefore? {depth j i : Nat} (h : enclosingBefore? ls depth j = some i) :
    i ∈ foldersOf ls := by
  cases depth with
  | zero => simp [enclosingBefore?] at h
  | succ above => exact mem_foldersOf.mpr (isAt_of_opensAt (latestBefore?_eq_some h).2)

theorem mem_foldersOf_of_mem_rootsOf {i : Nat} (h : i ∈ rootsOf ls) : i ∈ foldersOf ls :=
  mem_foldersOf.mpr (isAt_of_opensAt (List.mem_filter.mp h).2)

theorem mem_foldersOf_of_mem_childrenOf {i j : Nat} (h : j ∈ childrenOf ls .folder i) : j ∈ foldersOf ls :=
  mem_foldersOf.mpr ⟨(mem_childrenOf.mp h).1, (mem_childrenOf.mp h).2.1⟩

theorem foldersOf_append (ls : List (Line × Int)) (l : Line × Int) :
    foldersOf (ls ++ [l]) = foldersOf ls ++ if l.1.kind = .folder then [ls.length] else [] := by
  rw [foldersOf, filter_range_append l fun i hi => isAt_append hi [l] _, isAt_length]
  simp [foldersOf]

theorem rank_append {i : Nat} (h : i ≤ ls.length) (l : Line × Int) : rank (ls ++ [l]) i = rank ls i := by
  rw [rank, rank]
  congr 1
  refine List.filter_congr fun j hj => isAt_append ?_ [l] _
  have := List.mem_range.mp hj
  omega

/-- The rank of a folder line is its number among the folder lines. -/
theorem getElem?_rank {i : Nat} (h : i ∈ foldersOf ls) : (foldersOf ls)[rank ls i]? = some i := by
  obtain ⟨hlt, hf⟩ := mem_foldersOf.mp h
  have hsplit : foldersOf ls =
      (List.range i).filter (isAt ls .folder) ++
        i :: (List.range' (i + 1) (ls.length - (i + 1))).filter (isAt ls .folder) := by
    have hrange : List.range ls.length =
        List.range i ++ i :: List.range' (i + 1) (ls.length - (i + 1)) := by
      have happ := List.range'_append_1 (s := 0) (m := i) (n := ls.length - (i + 1) + 1)
      rw [Nat.zero_add, show i + (ls.length - (i + 1) + 1) = ls.length by omega] at happ
      rw [List.range_eq_range', List.range_eq_range', ← List.range'_succ, happ]
    rw [foldersOf, hrange, List.filter_append, List.filter_cons_of_pos hf]
  rw [hsplit, rank, List.getElem?_append_right (Nat.le_refl _), Nat.sub_self]
  rfl

theorem rank_lt {i : Nat} (h : i ∈ foldersOf ls) : rank ls i < (foldersOf ls).length :=
  (List.getElem?_eq_some_iff.mp (getElem?_rank h)).1

/-- Later folder lines have higher ranks. -/
theorem rank_lt_rank {i j : Nat} (hi : isAt ls .folder i = true) (h : i < j) : rank ls i < rank ls j := by
  have hsub : ((List.range (i + 1)).filter (isAt ls .folder)).Sublist
      ((List.range j).filter (isAt ls .folder)) := (List.range_sublist.mpr h).filter _
  have hle := hsub.length_le
  rw [List.range_succ, List.filter_append, List.filter_cons_of_pos hi, List.filter_nil, List.length_append,
    List.length_singleton] at hle
  exact hle

theorem nodup_foldersOf (ls : List (Line × Int)) : (foldersOf ls).Nodup := List.nodup_range.filter _

/-- A change of the draft with the number of `p` is a change of what `p` is mapped to. -/
theorem modify_map {α : Type} {xs : List Nat} (hd : xs.Nodup) {k p : Nat} (hk : xs[k]? = some p)
    (f : Nat → α) (g : α → α) :
    (xs.map f).modify k g = xs.map fun i => if i = p then g (f i) else f i := by
  refine List.ext_getElem? fun n => ?_
  rw [List.getElem?_modify, List.getElem?_map, List.getElem?_map]
  cases hn : xs[n]? with
  | none => rfl
  | some i =>
    by_cases hkn : k = n
    · obtain rfl : p = i := by rw [hkn, hn] at hk; exact (Option.some.inj hk).symm
      simp [hkn]
    · have hip : i ≠ p := by
        rintro rfl
        have hlt := (List.getElem?_eq_some_iff.mp hk).1
        exact hkn ((List.getElem?_inj hlt hd).mp (hk.trans hn.symm))
      simp [hkn, hip]

/-- A line is the parent of no line up to it. -/
theorem childrenOf_length (ls : List (Line × Int)) (l : Line × Int) (kind : Kind) :
    childrenOf (ls ++ [l]) kind ls.length = [] := by
  refine List.eq_nil_iff_forall_not_mem.mpr fun j hj => ?_
  obtain ⟨hlt, -, hp⟩ := mem_childrenOf.mp hj
  have := lt_of_parent? hp
  rw [List.length_append, List.length_singleton] at hlt
  omega

/-- The line behind goes to the draft of its parent, and to no other. -/
theorem draftAt_append {i : Nat} (hi : i < ls.length) (l : Line × Int) :
    draftAt (ls ++ [l]) i =
      if enclosingBefore? ls l.1.depth ls.length = some i then (draftAt ls i).attach l.1 (foldersOf ls).length
      else draftAt ls i := by
  have hfiles : (childrenOf ls .file i).filterMap (fileAt? (ls ++ [l])) =
      (childrenOf ls .file i).filterMap (fileAt? ls) :=
    List.filterMap_congr fun j hj => fileAt?_append (mem_childrenOf.mp hj).1 [l]
  have hchildren : (childrenOf ls .folder i).map (rank (ls ++ [l])) = (childrenOf ls .folder i).map (rank ls) :=
    List.map_congr_left fun j hj => rank_append (Nat.le_of_lt (mem_childrenOf.mp hj).1) l
  have hrank : rank (ls ++ [l]) ls.length = (foldersOf ls).length := rank_append (Nat.le_refl _) l
  have hfile : fileAt? (ls ++ [l]) ls.length = some (Builder.fileOf l.1) := by simp [fileAt?]
  rw [draftAt, draftAt, childrenOf_append, childrenOf_append, List.filterMap_append, List.map_append,
    nameAt_append hi, hfiles, hchildren]
  by_cases he : enclosingBefore? ls l.1.depth ls.length = some i
  · cases hk : l.1.kind <;> simp [he, hk, Draft.attach, hrank, hfile]
  · simp [he]

end Outline

/-- **Agreement.** The parts of a builder in terms of the lines it has taken and their parents: drafts
    are numbered by the ranks of the folder lines. -/
structure Builder.Agrees (ls : List (Line × Int)) (b : Builder) : Prop where
  drafts : b.drafts = (Outline.foldersOf ls).map (Outline.draftAt ls)
  roots : b.roots = (Outline.rootsOf ls).map (Outline.rank ls)
  latest : ∀ depth, Entries.get? depth b.latest =
    (Outline.latestBefore? ls depth ls.length).map (Outline.rank ls)
  dropped : b.dropped = (Outline.lostOf ls).filterMap (Outline.dropAt? ls)

namespace Builder

open Outline

variable {ls : List (Line × Int)} {b : Builder}

theorem agrees_empty : Agrees [] empty where
  drafts := rfl
  roots := rfl
  latest _ := rfl
  dropped := rfl

theorem Agrees.length_drafts (h : Agrees ls b) : b.drafts.length = (foldersOf ls).length := by
  rw [h.drafts, List.length_map]

theorem Agrees.enclosing? (h : Agrees ls b) (depth : Nat) :
    b.enclosing? depth = (enclosingBefore? ls depth ls.length).map (rank ls) := by
  cases depth with
  | zero => rfl
  | succ above => exact h.latest above

theorem Agrees.opened (h : Agrees ls b) (l : Line × Int) :
    b.opened l.1 = (foldersOf (ls ++ [l])).map fun i =>
      if i < ls.length then draftAt ls i else draftAt (ls ++ [l]) i := by
  have hold : (foldersOf ls).map (fun i => if i < ls.length then draftAt ls i else draftAt (ls ++ [l]) i) =
      (foldersOf ls).map (draftAt ls) :=
    List.map_congr_left fun i hi => if_pos (mem_foldersOf.mp hi).1
  have hnew : draftAt (ls ++ [l]) ls.length = { name := l.1.name } := by
    simp [draftAt, childrenOf_length, nameAt]
  rw [Builder.opened, h.drafts, foldersOf_append, List.map_append, hold]
  split <;> simp [hnew]

/-- What a line names goes to the draft of its parent. -/
theorem Agrees.attached (h : Agrees ls b) (l : Line × Int) :
    b.attached l.1 = (foldersOf (ls ++ [l])).map (draftAt (ls ++ [l])) := by
  have hlen := h.length_drafts
  rw [Builder.attached, h.enclosing?, h.opened l]
  cases he : enclosingBefore? ls l.1.depth ls.length with
  | none =>
    refine List.map_congr_left fun i _ => ?_
    by_cases hi : i < ls.length
    · rw [if_pos hi, draftAt_append hi, he, if_neg (by simp)]
    · rw [if_neg hi]
  | some p =>
    have hp := mem_foldersOf_of_enclosingBefore? he
    have hget : (foldersOf (ls ++ [l]))[rank ls p]? = some p := by
      rw [foldersOf_append, List.getElem?_append_left (rank_lt hp), getElem?_rank hp]
    refine (modify_map (nodup_foldersOf _) hget _ _).trans (List.map_congr_left fun i _ => ?_)
    by_cases hi : i < ls.length
    · rw [if_pos hi, draftAt_append hi, he, hlen]
      by_cases hip : i = p
      · rw [if_pos hip, if_pos (by rw [hip])]
      · rw [if_neg hip, if_neg fun hs => hip (Option.some.inj hs).symm]
    · have hip : i ≠ p := fun hip => hi (hip ▸ (mem_foldersOf.mp hp).1)
      rw [if_neg hi, if_neg hip]

/-- **One step keeps the agreement.** -/
theorem Agrees.add (h : Agrees ls b) (l : Line × Int) : Agrees (ls ++ [l]) (b.add l.1 l.2) := by
  have hlen := h.length_drafts
  have hrank : rank (ls ++ [l]) ls.length = (foldersOf ls).length := rank_append (Nat.le_refl _) l
  rw [add_eq]
  refine ⟨h.attached l, ?_, fun depth => ?_, ?_⟩
  · have hold : (rootsOf ls).map (rank (ls ++ [l])) = (rootsOf ls).map (rank ls) :=
      List.map_congr_left fun i hi =>
        rank_append (Nat.le_of_lt (List.mem_range.mp (List.mem_filter.mp hi).1)) l
    show b.roots ++ _ = _
    rw [rootsOf_append, List.map_append, hold, h.roots, hlen]
    split <;> simp [hrank]
  · have hold : (latestBefore? ls depth ls.length).map (rank (ls ++ [l])) =
        (latestBefore? ls depth ls.length).map (rank ls) :=
      Option.map_congr fun i hi => rank_append (Nat.le_of_lt (latestBefore?_eq_some hi).1) l
    rw [List.length_append, List.length_singleton, latestBefore?_length_succ]
    show Entries.get? depth (if _ then _ else _) = _
    by_cases hk : l.1.kind = .folder
    · rw [if_pos hk]
      by_cases hd : l.1.depth = depth
      · rw [if_pos ⟨hk, hd⟩, hd, Entries.get?_insert_self, hlen, Option.map_some, hrank]
      · rw [if_neg fun hc => hd hc.2, Entries.get?_insert_of_ne hd, h.latest, hold]
    · rw [if_neg hk, if_neg fun hc => hk hc.1, h.latest, hold]
  · have hold : (lostOf ls).filterMap (dropAt? (ls ++ [l])) = (lostOf ls).filterMap (dropAt? ls) :=
      List.filterMap_congr fun i hi => dropAt?_append (List.mem_range.mp (List.mem_filter.mp hi).1) [l]
    have hnew : dropAt? (ls ++ [l]) ls.length = some ⟨l.2, l.1.kind, l.1.name, l.1.depth⟩ := by
      simp [dropAt?]
    show b.dropped ++ _ = _
    rw [lostOf_append, List.filterMap_append, hold, h.dropped, h.enclosing?]
    simp only [Option.map_eq_none_iff]
    split <;> simp [hnew]

theorem addAll_append (b : Builder) (ls : List (Line × Int)) (l : Line × Int) :
    b.addAll (ls ++ [l]) = (b.addAll ls).add l.1 l.2 := by
  simp [addAll]

/-- **Every run keeps the agreement.** -/
theorem agrees_addAll (ls : List (Line × Int)) : Agrees ls (empty.addAll ls) := by
  induction ls using List.reverseRecOn with
  | nil => exact agrees_empty
  | append_singleton ls l ih =>
    rw [addAll_append]
    exact ih.add l

/-! ## Building -/

/-- The draft of a folder line is finished to the folder that the line makes. -/
theorem Agrees.getElem?_finish (h : Agrees ls b) (i : Nat) (hi : i ∈ foldersOf ls) :
    (finish 0 b.drafts)[rank ls i]? = some (folderAt ls i) := by
  have hget : b.drafts[rank ls i]? = some (draftAt ls i) := by
    rw [h.drafts, List.getElem?_map, getElem?_rank hi]
    rfl
  have hchild : ∀ j ∈ childrenOf ls .folder i, i < j ∧ j ∈ foldersOf ls := fun j hj => by
    obtain ⟨hlt, hf, hp⟩ := mem_childrenOf.mp hj
    exact ⟨lt_of_parent? hp, mem_foldersOf.mpr ⟨hlt, hf⟩⟩
  have hlater : ∀ c ∈ (draftAt ls i).children, 0 + rank ls i < c := fun c hc => by
    obtain ⟨j, hj, rfl⟩ := List.mem_map.mp hc
    rw [Nat.zero_add]
    exact rank_lt_rank (mem_foldersOf.mp hi).2 (hchild j hj).1
  have hfolders : (draftAt ls i).children.filterMap (fun c => (finish 0 b.drafts)[c - 0]?) =
      (childrenOf ls .folder i).map (folderAt ls) := by
    rw [draftAt, List.filterMap_map, ← List.filterMap_eq_map]
    refine List.filterMap_congr fun j hj => ?_
    exact Agrees.getElem?_finish h j (hchild j hj).2
  rw [Builder.getElem?_finish hget hlater, hfolders, folderAt_eq]
  rfl
termination_by ls.length - i
decreasing_by
  have := hchild j hj
  have := (mem_foldersOf.mp this.2).1
  omega

/-- **What a builder builds.** The outline of the lines that a builder has taken is the one that their parents
    make, for lines of any depths and kinds, with any numbers. -/
theorem build_addAll (ls : List (Line × Int)) : (empty.addAll ls).build = Outline.ofParents ls := by
  have h := agrees_addAll ls
  have hroots : ∀ i ∈ rootsOf ls, i ∈ foldersOf ls := fun i hi =>
    mem_foldersOf.mpr (isAt_of_opensAt (List.mem_filter.mp hi).2)
  have hfolders : (empty.addAll ls).roots.filterMap (fun r => (finish 0 (empty.addAll ls).drafts)[r]?) =
      (rootsOf ls).map (folderAt ls) := by
    rw [h.roots, List.filterMap_map, ← List.filterMap_eq_map]
    exact List.filterMap_congr fun i hi => h.getElem?_finish i (hroots i hi)
  rw [build, ofParents, hfolders, h.dropped]

end Builder

end Stencil
