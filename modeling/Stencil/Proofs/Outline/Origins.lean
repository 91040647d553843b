import Mathlib.Data.List.Nodup
import Mathlib.Logic.Relation
import Stencil.Proofs.Outline.Document
import Stencil.Proofs.Outline.Walk

/-!
# `Stencil.Proofs.Outline.Origins` — what becomes of every line

The parents of a line end at its origin, a line without a parent. If that is a root folder, what the line
names is in the outline; if it was dropped, the line goes with it, and no message tells.

## Contents
- **Origins.** `origin`, and the relation `IsIn` of a line to the lines on the way to its origin.
- **Groups.** Lines that are placed, as folders or as files, lines that are lost, and lines that are
  stranded below a lost one. Every line is in exactly one group (`groups_perm_range`).
- **Folders and files.** The lines inside a folder line, and the names on the way to each of them, are what a walk of
  its folder meets (`walk_folderAt`). The folders and files of an outline are those that the placed lines name, each
  once (`folders_perm`, `files_perm`).
- **Accounts.** `ofText_accounts`, with the counts.
-/

namespace Stencil.Outline

open Text

variable {ls : List (Line × Int)}

/-! ## Origins -/

/-- Where the parents of the line at a position end: at the line itself, if it has no parent. -/
def origin (ls : List (Line × Int)) (j : Nat) : Nat :=
  match _h : parent? ls j with
  | none => j
  | some i => origin ls i
termination_by j
decreasing_by exact lt_of_parent? _h

/-- The line at `j` is the one at `i`, or the parents of `j` lead to it. -/
def IsIn (ls : List (Line × Int)) (j i : Nat) : Prop :=
  Relation.ReflTransGen (fun k above => parent? ls k = some above) j i

theorem origin_of_parent?_eq_none {j : Nat} (h : parent? ls j = none) : origin ls j = j := by
  rw [origin]
  split
  · rfl
  · next i hi => rw [h] at hi; cases hi

theorem origin_of_parent? {i j : Nat} (h : parent? ls j = some i) : origin ls j = origin ls i := by
  conv => lhs; rw [origin]
  split
  · next hnone => rw [h] at hnone; cases hnone
  · next k hk => rw [h] at hk; rw [Option.some.inj hk]

/-- Everything is in its origin, which has no parent. -/
theorem isIn_origin (ls : List (Line × Int)) (j : Nat) :
    IsIn ls j (origin ls j) ∧ parent? ls (origin ls j) = none := by
  induction j using Nat.strongRecOn with
  | ind j ih =>
    cases h : parent? ls j with
    | none =>
      rw [origin_of_parent?_eq_none h]
      exact ⟨.refl, h⟩
    | some i =>
      obtain ⟨hin, hnone⟩ := ih i (lt_of_parent? h)
      rw [origin_of_parent? h]
      exact ⟨.head h hin, hnone⟩

theorem IsIn.origin_eq {i j : Nat} (h : IsIn ls j i) : origin ls j = origin ls i := by
  induction h with
  | refl => rfl
  | tail _ hp ih => rw [ih, origin_of_parent? hp]

/-- What a line is in stands before it. -/
theorem IsIn.le {i j : Nat} (h : IsIn ls j i) : i ≤ j := by
  induction h with
  | refl => exact Nat.le_refl j
  | tail _ hp ih =>
    have := lt_of_parent? hp
    omega

/-- Parents are unique, so of two lines that something is in, one is in the other. -/
theorem IsIn.total {i j k : Nat} (hi : IsIn ls j i) (hk : IsIn ls j k) : IsIn ls i k ∨ IsIn ls k i :=
  Relation.ReflTransGen.total_of_right_unique
    (fun _ _ _ h h' => Option.some.inj (h.symm.trans h')) hi hk

theorem isAt_folder_of_parent? {i j : Nat} (h : parent? ls j = some i) : isAt ls .folder i = true := by
  obtain ⟨l, -, hl⟩ := Option.bind_eq_some_iff.mp h
  exact (mem_foldersOf.mp (mem_foldersOf_of_enclosingBefore? hl)).2

/-- A folder line is in folder lines only. -/
theorem IsIn.isAt_folder {i j : Nat} (h : IsIn ls j i) (hj : isAt ls .folder j = true) : isAt ls .folder i = true := by
  cases h with
  | refl => exact hj
  | tail _ hp => exact isAt_folder_of_parent? hp

/-! ## Groups -/

/-- Whether the line at a position has a root folder as its origin. -/
def isPlaced (ls : List (Line × Int)) (j : Nat) : Bool := opensAt ls 0 (origin ls j)

/-- The lines of a kind with a root folder as their origin. -/
def placedOf (ls : List (Line × Int)) (kind : Kind) : List Nat :=
  (List.range ls.length).filter fun j => isAt ls kind j ∧ isPlaced ls j

/-- The lines that have a parent, but whose parents end at a lost line. -/
def strandedOf (ls : List (Line × Int)) : List Nat :=
  (List.range ls.length).filter fun j => parent? ls j ≠ none ∧ origin ls j ∈ lostOf ls

theorem mem_placedOf {kind : Kind} {j : Nat} :
    j ∈ placedOf ls kind ↔ j < ls.length ∧ isAt ls kind j = true ∧ isPlaced ls j = true := by
  simp [placedOf]

theorem nodup_placedOf (ls : List (Line × Int)) (kind : Kind) : (placedOf ls kind).Nodup := List.nodup_range.filter _

theorem isAt_file_iff {j : Nat} (h : j < ls.length) : isAt ls .file j = true ↔ isAt ls .folder j = false := by
  rw [isAt, isAt, List.getElem?_eq_getElem h]
  cases hk : ls[j].1.kind <;> simp [hk]

/-- A root folder has no parent. -/
theorem parent?_of_opensAt_zero {j : Nat} (h : opensAt ls 0 j = true) : parent? ls j = none := by
  obtain ⟨l, hl, hp⟩ := (Option.any_eq_true _ _).mp h
  have hd : l.1.depth = 0 := (by simpa using hp : _ ∧ _).2
  rw [parent?, hl, Option.bind_some, hd]
  rfl

theorem mem_lostOf_origin_iff {j : Nat} (h : j < ls.length) : origin ls j ∈ lostOf ls ↔ isPlaced ls j = false := by
  have hle := (isIn_origin ls j).1.le
  have hlt : origin ls j < ls.length := by omega
  simp [lostOf, isPlaced, hlt, (isIn_origin ls j).2]

/-- Of the elements with a property, some have another one and the others do not. -/
theorem filter_and_perm {α : Type} (p q : α → Bool) (l : List α) :
    (l.filter (fun a => q a && p a) ++ l.filter fun a => !q a && p a).Perm (l.filter p) := by
  rw [← List.filter_filter, ← List.filter_filter]
  exact List.filter_append_perm q (l.filter p)

/-- **Every line is in exactly one group.** -/
theorem groups_perm_range (ls : List (Line × Int)) :
    ((placedOf ls .folder ++ placedOf ls .file) ++ (lostOf ls ++ strandedOf ls)).Perm (List.range ls.length) := by
  have hlt : ∀ j ∈ List.range ls.length, j < ls.length := fun j => List.mem_range.mp
  have hplaced : (placedOf ls .folder ++ placedOf ls .file).Perm ((List.range ls.length).filter (isPlaced ls)) := by
    refine List.Perm.trans (List.Perm.of_eq ?_) (filter_and_perm (isPlaced ls) (isAt ls .folder) _)
    congr 1
    · exact List.filter_congr fun j _ => by simp
    · refine List.filter_congr fun j hj => ?_
      rw [Bool.eq_iff_iff]
      simp [isAt_file_iff (hlt j hj)]
  have hother : (lostOf ls ++ strandedOf ls).Perm ((List.range ls.length).filter fun j => !isPlaced ls j) := by
    refine List.Perm.trans (List.Perm.of_eq ?_)
      (filter_and_perm (fun j => !isPlaced ls j) (fun j => parent? ls j = none) _)
    congr 1
    · -- a line without a parent is its own origin
      refine List.filter_congr fun j _ => ?_
      rw [Bool.eq_iff_iff]
      by_cases hp : parent? ls j = none
      · simp [hp, isPlaced, origin_of_parent?_eq_none hp]
      · simp [hp]
    · refine List.filter_congr fun j hj => ?_
      rw [Bool.eq_iff_iff]
      simp [mem_lostOf_origin_iff (hlt j hj)]
  exact (hplaced.append hother).trans (List.filter_append_perm _ _)

/-! ## Folders and files -/

/-- The folder lines in the folder line at a position, in the order of a walk. -/
def inside (ls : List (Line × Int)) (i : Nat) : List Nat :=
  i :: (childrenOf ls .folder i).attach.flatMap fun j => inside ls j.1
termination_by ls.length - i
decreasing_by
  have hj := mem_childrenOf.mp j.2
  have := lt_of_parent? hj.2.2
  omega

theorem inside_eq (ls : List (Line × Int)) (i : Nat) :
    inside ls i = i :: (childrenOf ls .folder i).flatMap (inside ls) := by
  rw [inside, List.flatMap_def, List.attach_map_val (f := inside ls), ← List.flatMap_def]

/-- The names on the way to the line at a position, its own last. -/
def namesTo (ls : List (Line × Int)) (j : Nat) : List String :=
  match _h : parent? ls j with
  | none => [nameAt ls j]
  | some i => namesTo ls i ++ [nameAt ls j]
termination_by j
decreasing_by exact lt_of_parent? _h

theorem namesTo_of_parent?_eq_none {j : Nat} (h : parent? ls j = none) : namesTo ls j = [nameAt ls j] := by
  rw [namesTo]
  split
  · rfl
  · next i hi => rw [h] at hi; cases hi

theorem namesTo_of_parent? {i j : Nat} (h : parent? ls j = some i) : namesTo ls j = namesTo ls i ++ [nameAt ls j] := by
  rw [namesTo]
  split
  · next hnone => rw [h] at hnone; cases hnone
  · next k hk => rw [h] at hk; rw [Option.some.inj hk]

/-- A walk of the folder that a line makes meets the folders that the lines inside make, in this order and with the
    names that lead to these lines. -/
theorem walk_folderAt {above : List String} (i : Nat) (h : above ++ [nameAt ls i] = namesTo ls i) :
    Folder.walk above (folderAt ls i) = (inside ls i).map fun j => (namesTo ls j, folderAt ls j) := by
  have hname : (folderAt ls i).name = nameAt ls i := by rw [folderAt_eq]; rfl
  have hfolders : (folderAt ls i).folders = (childrenOf ls .folder i).map (folderAt ls) := by rw [folderAt_eq]; rfl
  rw [Folder.walk_eq, inside_eq, List.map_cons, hname, h, Folder.walkAll_eq_flatMap, hfolders, List.flatMap_map,
    List.map_flatMap]
  refine congrArg _ (List.flatMap_congr fun j hj => ?_)
  have hj' := mem_childrenOf.mp hj
  have := lt_of_parent? hj'.2.2
  exact walk_folderAt j (namesTo_of_parent? hj'.2.2).symm
termination_by ls.length - i

/-- A walk of the outline of some lines meets the folders that the lines inside the root folder lines make. -/
theorem walk_build (ls : List (Line × Int)) :
    (Builder.empty.addAll ls).build.walk =
      ((rootsOf ls).flatMap (inside ls)).map fun j => (namesTo ls j, folderAt ls j) := by
  rw [walk, folders_of_lines, Folder.walkAll_eq_flatMap, List.flatMap_map, List.map_flatMap]
  refine List.flatMap_congr fun i hi => walk_folderAt i ?_
  rw [namesTo_of_parent?_eq_none (parent?_of_opensAt_zero (List.mem_filter.mp hi).2)]
  rfl

/-- The lines inside a folder line are the folder lines that are in it. -/
theorem mem_inside_iff {i : Nat} (hi : i < ls.length) (hf : isAt ls .folder i = true) (j : Nat) :
    j ∈ inside ls i ↔ j < ls.length ∧ isAt ls .folder j = true ∧ IsIn ls j i := by
  -- a subfolder stands further down, so there are fewer lines behind it
  have hchild : ∀ c ∈ childrenOf ls .folder i, ∀ j,
      j ∈ inside ls c ↔ j < ls.length ∧ isAt ls .folder j = true ∧ IsIn ls j c := by
    intro c hc j
    obtain ⟨hlt, hcf, hp⟩ := mem_childrenOf.mp hc
    have := lt_of_parent? hp
    exact mem_inside_iff hlt hcf j
  rw [inside_eq, List.mem_cons, List.mem_flatMap]
  constructor
  · rintro (rfl | ⟨c, hc, hj⟩)
    · exact ⟨hi, hf, .refl⟩
    · obtain ⟨hlt, hjf, hin⟩ := (hchild c hc j).mp hj
      exact ⟨hlt, hjf, hin.tail (mem_childrenOf.mp hc).2.2⟩
  · rintro ⟨hlt, hjf, hin⟩
    rcases hin.cases_tail with rfl | ⟨c, hjc, hp⟩
    · exact .inl rfl
    · have hcj : c ≤ j := IsIn.le hjc
      have hc : c ∈ childrenOf ls .folder i :=
        mem_childrenOf.mpr ⟨by omega, IsIn.isAt_folder hjc hjf, hp⟩
      exact .inr ⟨c, hc, (hchild c hc j).mpr ⟨hlt, hjf, hjc⟩⟩
termination_by ls.length - i

/-- Nothing is in two lines that have the same parent, or none. -/
theorem IsIn.eq_of_parent? {i k j : Nat} (hi : IsIn ls j i) (hk : IsIn ls j k) (h : parent? ls i = parent? ls k) :
    i = k := by
  -- if one of them were in the other, it would be in its own parent, which stands before it
  have hcase : ∀ {a b : Nat}, IsIn ls a b → parent? ls a = parent? ls b → a = b := by
    intro a b hab heq
    rcases hab.cases_head with rfl | ⟨c, hc, hcb⟩
    · rfl
    · have hle := IsIn.le hcb
      have hlt := lt_of_parent? (heq.symm.trans hc)
      omega
  rcases hi.total hk with hik | hki
  · exact hcase hik h
  · exact (hcase hki h.symm).symm

/-- The lines inside different lines with the same parent, or none, are different. -/
theorem pairwise_disjoint_inside {is : List Nat} (hd : is.Nodup)
    (hmem : ∀ i ∈ is, i < ls.length ∧ isAt ls .folder i = true) (hp : ∀ i ∈ is, ∀ k ∈ is, parent? ls i = parent? ls k) :
    is.Pairwise (Function.onFun List.Disjoint (inside ls)) := by
  refine hd.pairwise_of_forall_ne fun i hi k hk hne j hji hjk => hne ?_
  have hin := ((mem_inside_iff (hmem i hi).1 (hmem i hi).2 j).mp hji).2.2
  have hkn := ((mem_inside_iff (hmem k hk).1 (hmem k hk).2 j).mp hjk).2.2
  exact hin.eq_of_parent? hkn (hp i hi k hk)

theorem nodup_inside (ls : List (Line × Int)) (i : Nat) : (inside ls i).Nodup := by
  have hmem : ∀ c ∈ childrenOf ls .folder i, c < ls.length ∧ isAt ls .folder c = true := fun c hc =>
    ⟨(mem_childrenOf.mp hc).1, (mem_childrenOf.mp hc).2.1⟩
  have hlt : ∀ c ∈ childrenOf ls .folder i, i < c := fun c hc => lt_of_parent? (mem_childrenOf.mp hc).2.2
  rw [inside_eq, List.nodup_cons, List.nodup_flatMap]
  -- the line is not inside its subfolders, and these have no lines in common
  refine ⟨fun hin => ?_, fun c hc => ?_, ?_⟩
  · obtain ⟨c, hc, hic⟩ := List.mem_flatMap.mp hin
    have hle := ((mem_inside_iff (hmem c hc).1 (hmem c hc).2 i).mp hic).2.2.le
    have := hlt c hc
    omega
  · have := hlt c hc
    have := (hmem c hc).1
    exact nodup_inside ls c
  · refine pairwise_disjoint_inside (List.nodup_range.filter _) hmem fun c hc d hd => ?_
    rw [(mem_childrenOf.mp hc).2.2, (mem_childrenOf.mp hd).2.2]
termination_by ls.length - i

/-- The lines inside root folder lines are the folder lines that are placed, each once. -/
theorem inside_roots_perm (ls : List (Line × Int)) : ((rootsOf ls).flatMap (inside ls)).Perm (placedOf ls .folder) := by
  have hopens : ∀ i ∈ rootsOf ls, opensAt ls 0 i = true := fun i hi => (List.mem_filter.mp hi).2
  have hmem : ∀ i ∈ rootsOf ls, i < ls.length ∧ isAt ls .folder i = true := fun i hi =>
    isAt_of_opensAt (hopens i hi)
  have hnone : ∀ i ∈ rootsOf ls, parent? ls i = none := fun i hi => parent?_of_opensAt_zero (hopens i hi)
  have hnodup : ((rootsOf ls).flatMap (inside ls)).Nodup := by
    refine List.nodup_flatMap.mpr ⟨fun i _ => nodup_inside ls i, ?_⟩
    refine pairwise_disjoint_inside (List.nodup_range.filter _) hmem fun i hi k hk => ?_
    rw [hnone i hi, hnone k hk]
  refine (List.perm_ext_iff_of_nodup hnodup (nodup_placedOf ls .folder)).mpr fun j => ?_
  rw [List.mem_flatMap, mem_placedOf]
  constructor
  · rintro ⟨i, hi, hj⟩
    obtain ⟨hlt, hf, hin⟩ := (mem_inside_iff (hmem i hi).1 (hmem i hi).2 j).mp hj
    refine ⟨hlt, hf, ?_⟩
    rw [isPlaced, hin.origin_eq, origin_of_parent?_eq_none (hnone i hi)]
    exact hopens i hi
  · rintro ⟨hlt, hf, hplaced⟩
    have hin := (isIn_origin ls j).1
    have hle := hin.le
    have hroot : origin ls j ∈ rootsOf ls := List.mem_filter.mpr ⟨List.mem_range.mpr (by omega), hplaced⟩
    exact ⟨_, hroot, (mem_inside_iff (hmem _ hroot).1 (hmem _ hroot).2 j).mpr ⟨hlt, hf, hin⟩⟩

/-- A line belongs to no more than one line, and to that one once. -/
theorem nodup_flatMap_childrenOf {is : List Nat} (hd : is.Nodup) (kind : Kind) :
    (is.flatMap (childrenOf ls kind)).Nodup := by
  refine List.nodup_flatMap.mpr ⟨fun i _ => List.nodup_range.filter _, ?_⟩
  refine hd.pairwise_of_forall_ne fun i _ k _ hne j hji hjk => hne ?_
  exact Option.some.inj ((mem_childrenOf.mp hji).2.2.symm.trans (mem_childrenOf.mp hjk).2.2)

/-- The file lines of the folder lines that are placed are the file lines that are placed, each once. -/
theorem childrenOf_placed_perm (ls : List (Line × Int)) :
    ((placedOf ls .folder).flatMap (childrenOf ls .file)).Perm (placedOf ls .file) := by
  have hnodup : ((placedOf ls .folder).flatMap (childrenOf ls .file)).Nodup :=
    nodup_flatMap_childrenOf (nodup_placedOf ls .folder) .file
  refine (List.perm_ext_iff_of_nodup hnodup (nodup_placedOf ls .file)).mpr fun j => ?_
  rw [List.mem_flatMap, mem_placedOf]
  constructor
  · rintro ⟨i, hi, hj⟩
    obtain ⟨hlt, hf, hp⟩ := mem_childrenOf.mp hj
    refine ⟨hlt, hf, ?_⟩
    rw [isPlaced, origin_of_parent? hp]
    exact (mem_placedOf.mp hi).2.2
  · rintro ⟨hlt, hf, hplaced⟩
    -- a file line is no root folder, so it has a parent if it is placed
    cases hp : parent? ls j with
    | none =>
      rw [isPlaced, origin_of_parent?_eq_none hp] at hplaced
      have hfolder := (isAt_of_opensAt hplaced).2
      rw [(isAt_file_iff hlt).mp hf] at hfolder
      cases hfolder
    | some i =>
      have hij := lt_of_parent? hp
      refine ⟨i, mem_placedOf.mpr ⟨by omega, isAt_folder_of_parent? hp, ?_⟩, mem_childrenOf.mpr ⟨hlt, hf, hp⟩⟩
      rw [isPlaced, ← origin_of_parent? hp]
      exact hplaced

/-- **The folders of an outline are those of the lines that are placed as folders.** -/
theorem folders_perm (text : List Char) :
    ((ofText text).walk.map Prod.snd).Perm
      ((placedOf (classifyFrom 1 (lines text)) .folder).map (folderAt (classifyFrom 1 (lines text)))) := by
  rw [ofText, walk_build, List.map_map]
  exact (inside_roots_perm _).map _

/-- **The files of an outline are those of the lines that are placed as files.** -/
theorem files_perm (text : List Char) :
    ((ofText text).walk.flatMap fun p => p.2.files).Perm
      ((placedOf (classifyFrom 1 (lines text)) .file).filterMap (fileAt? (classifyFrom 1 (lines text)))) := by
  have hfiles : ∀ i, (folderAt (classifyFrom 1 (lines text)) i).files =
      (childrenOf (classifyFrom 1 (lines text)) .file i).filterMap (fileAt? (classifyFrom 1 (lines text))) := by
    intro i
    rw [folderAt_eq]
    rfl
  have hmap : ((ofText text).walk.flatMap fun p => p.2.files) =
      ((ofText text).walk.map Prod.snd).flatMap Folder.files := (List.flatMap_map ..).symm
  rw [hmap]
  refine ((folders_perm text).flatMap_right _).trans ?_
  rw [List.flatMap_map, List.flatMap_congr fun i _ => hfiles i, ← List.filterMap_flatMap]
  exact (childrenOf_placed_perm _).filterMap _

/-! ## Accounts -/

theorem length_files_walk (o : Outline) : (o.walk.flatMap fun p => p.2.files).length = o.fileCount :=
  o.length_flatMap_walk fun _ => rfl

theorem folderCount_ofText (text : List Char) :
    (ofText text).folderCount = (placedOf (classifyFrom 1 (lines text)) .folder).length := by
  have h := (folders_perm text).length_eq
  rwa [List.length_map, List.length_map] at h

theorem fileCount_ofText (text : List Char) :
    (ofText text).fileCount = (placedOf (classifyFrom 1 (lines text)) .file).length := by
  rw [← length_files_walk, (files_perm text).length_eq, length_filterMap_of_isSome]
  exact fun j hj => isSome_fileAt? (mem_placedOf.mp hj).1

/-- Where nothing is lost, nothing is stranded. -/
theorem strandedOf_eq_nil (h : lostOf ls = []) : strandedOf ls = [] := by
  rw [strandedOf, h]
  simp

/-- The groups have as many lines together as there are lines that are not blank. -/
theorem length_spoken_lines (text : List Char) :
    (spoken (lines text)).length = (ofText text).folderCount + (ofText text).fileCount + (ofText text).dropped.length +
      (strandedOf (classifyFrom 1 (lines text))).length := by
  have h := (groups_perm_range (classifyFrom 1 (lines text))).length_eq
  simp only [List.length_append, List.length_range] at h
  rw [← length_classifyFrom 1, folderCount_ofText, fileCount_ofText, length_dropped_ofText]
  omega

/-- **No line is lost without trace, and none is counted twice.** The lines of a document that are not blank
    fall into four groups: placed as folders, placed as files, lost, and stranded below a lost folder. The
    folders and files of the outline are those that placed lines name, and there is a message for each lost
    line. So the lines are as many as folders, files, messages and stranded lines together, and without a
    message no line is missing. -/
theorem ofText_accounts (text : List Char) :
    let ls := classifyFrom 1 (lines text)
    let o := ofText text
    ((placedOf ls .folder ++ placedOf ls .file) ++ (lostOf ls ++ strandedOf ls)).Perm (List.range ls.length) ∧
      (o.walk.map Prod.snd).Perm ((placedOf ls .folder).map (folderAt ls)) ∧
      (o.walk.flatMap fun p => p.2.files).Perm ((placedOf ls .file).filterMap (fileAt? ls)) ∧
      o.dropped = ((lostOf ls).filterMap (dropAt? ls)).map Drop.message ∧
      (spoken (lines text)).length = o.folderCount + o.fileCount + o.dropped.length + (strandedOf ls).length ∧
      (o.dropped = [] → o.folderCount + o.fileCount = (spoken (lines text)).length) := by
  intro ls o
  have hcount := length_spoken_lines text
  refine ⟨groups_perm_range ls, folders_perm text, files_perm text, dropped_ofText text, hcount, fun hnone => ?_⟩
  rw [hcount, hnone, strandedOf_eq_nil (lostOf_eq_nil_of_dropped hnone)]
  rfl

/-- One line of each group: a folder, a file in it, a lost folder two levels too deep, and a file stranded in that. -/
theorem ofText_accounts_orphan :
    let text := "R:\n\tx\n\n\t\t\tO:\n\t\t\t\ty".toList
    (ofText text).folderCount = 1 ∧ (ofText text).fileCount = 1 ∧ (ofText text).dropped.length = 1 ∧
      (strandedOf (classifyFrom 1 (lines text))).length = 1 := by
  intro text
  have hfolders : (ofText text).folderCount = 1 := by decide +kernel
  have hfiles : (ofText text).fileCount = 1 := by decide +kernel
  have hdropped : (ofText text).dropped.length = 1 := by decide +kernel
  have hlines : (spoken (lines text)).length = 4 := by decide +kernel
  have hcount := (ofText_accounts text).2.2.2.2.1
  refine ⟨hfolders, hfiles, hdropped, ?_⟩
  omega

end Stencil.Outline
