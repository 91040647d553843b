import Stencil.Proofs.Outline.Origins

/-!
# `Stencil.Proofs.Outline.Arena` — the numbers that a builder keeps

A builder knows its drafts by number: in the list of root folders, in the lists of subfolders and in the map of depths.
Whatever lines it has taken, these numbers are in order, so they can be followed down from every root folder.

## Contents
- **Order.** `Builder.IsOrderly` says what holds of the numbers. It holds of every builder that agrees with its lines
  (`Agrees.isOrderly`). `Opens` says which line a draft is from.
- **Following numbers.** `materialise?` makes the folder of a draft by following numbers down, and fails if a number
  leads nowhere or the way is too long. `visits` lists the drafts on the way.
- **Every run.** `isOrderly_addAll`.
-/

namespace Stencil

namespace Outline

variable {ls : List (Line × Int)}

theorem rank_inj {i j : Nat} (hi : isAt ls .folder i = true) (hj : isAt ls .folder j = true)
    (h : rank ls i = rank ls j) : i = j := by
  rcases Nat.lt_trichotomy i j with hlt | heq | hgt
  · have := rank_lt_rank hi hlt
    omega
  · exact heq
  · have := rank_lt_rank hj hgt
    omega

/-- Lines with ranks that are distinct because the lines are. -/
theorem nodup_map_rank {is : List Nat} (hd : is.Nodup) (hf : ∀ i ∈ is, isAt ls .folder i = true) :
    (is.map (rank ls)).Nodup :=
  List.Nodup.map_on (fun i hi j hj => rank_inj (hf i hi) (hf j hj)) hd

/-- A line is a root folder or belongs to one other line, and to that one once. -/
theorem nodup_roots_children (ls : List (Line × Int)) :
    (rootsOf ls ++ (foldersOf ls).flatMap (childrenOf ls .folder)).Nodup := by
  refine List.nodup_append.mpr
    ⟨List.nodup_range.filter _, nodup_flatMap_childrenOf (nodup_foldersOf ls) .folder, ?_⟩
  rintro j hroot k hchild rfl
  obtain ⟨i, -, hi⟩ := List.mem_flatMap.mp hchild
  have hnone := parent?_of_opensAt_zero (List.mem_filter.mp hroot).2
  rw [(mem_childrenOf.mp hi).2.2] at hnone
  cases hnone

end Outline

namespace Builder

open Outline

variable {ls : List (Line × Int)} {b : Builder}

/-! ## Order -/

/-- **Numbers in order.** Every number leads to a draft, those of subfolders to later ones, and none comes twice among
    those of root folders and subfolders. -/
structure IsOrderly (b : Builder) : Prop where
  roots : ∀ r ∈ b.roots, r < b.drafts.length
  children : ∀ d ∈ b.drafts, ∀ c ∈ d.children, c < b.drafts.length
  latest : ∀ e ∈ b.latest, e.2 < b.drafts.length
  later : ∀ (k : Nat) (d : Draft), b.drafts[k]? = some d → ∀ c ∈ d.children, k < c
  nodup : (b.roots ++ b.drafts.flatMap Draft.children).Nodup

/-- The folder line at a position opens the draft with a number: there are as many drafts before it. -/
def Opens (ls : List (Line × Int)) (i number : Nat) : Prop :=
  isAt ls .folder i = true ∧ (empty.addAll (ls.take i)).drafts.length = number

theorem Agrees.getElem?_rank (h : Agrees ls b) {i : Nat} (hi : i ∈ foldersOf ls) :
    b.drafts[rank ls i]? = some (draftAt ls i) := by
  rw [h.drafts, List.getElem?_map, Outline.getElem?_rank hi, Option.map_some]

theorem Agrees.rank_lt (h : Agrees ls b) {i : Nat} (hi : i ∈ foldersOf ls) : rank ls i < b.drafts.length := by
  rw [h.length_drafts]
  exact Outline.rank_lt hi

/-- The map of depths has one entry for each depth. -/
theorem nodup_keys_latest (ls : List (Line × Int)) : (Entries.keys (empty.addAll ls).latest).Nodup := by
  induction ls using List.reverseRecOn with
  | nil => exact List.nodup_nil
  | append_singleton ls l ih =>
    rw [addAll_append, add_eq]
    dsimp only
    split
    · exact Entries.nodup_keys_insert ih
    · exact ih

/-- **A builder that agrees with its lines has its numbers in order.** -/
theorem Agrees.isOrderly (h : Agrees ls b) (hkeys : (Entries.keys b.latest).Nodup) : b.IsOrderly := by
  constructor
  · intro r hr
    rw [h.roots] at hr
    obtain ⟨i, hi, rfl⟩ := List.mem_map.mp hr
    exact h.rank_lt (mem_foldersOf_of_mem_rootsOf hi)
  · intro d hd c hc
    rw [h.drafts] at hd
    obtain ⟨i, -, rfl⟩ := List.mem_map.mp hd
    obtain ⟨j, hj, rfl⟩ := List.mem_map.mp hc
    exact h.rank_lt (mem_foldersOf_of_mem_childrenOf hj)
  · intro e he
    have hget := Entries.get?_of_mem hkeys he
    rw [h.latest] at hget
    obtain ⟨i, hi, hrank⟩ := Option.map_eq_some_iff.mp hget
    rw [← hrank]
    exact h.rank_lt (mem_foldersOf.mpr (isAt_of_opensAt (latestBefore?_eq_some hi).2))
  · intro k d hd c hc
    -- the draft is from some line, which stands before the lines of its subfolders
    rw [h.drafts, List.getElem?_map] at hd
    obtain ⟨i, hi, rfl⟩ := Option.map_eq_some_iff.mp hd
    obtain ⟨j, hj, rfl⟩ := List.mem_map.mp hc
    have hmem : i ∈ foldersOf ls := List.mem_of_getElem? hi
    obtain ⟨hk, -⟩ := List.getElem?_eq_some_iff.mp hi
    have hrank : rank ls i = k :=
      ((List.getElem?_inj hk (nodup_foldersOf ls)).mp (hi.trans (Outline.getElem?_rank hmem).symm)).symm
    rw [← hrank]
    exact rank_lt_rank (mem_foldersOf.mp hmem).2 (lt_of_parent? (mem_childrenOf.mp hj).2.2)
  · have hall : b.roots ++ b.drafts.flatMap Draft.children =
        (rootsOf ls ++ (foldersOf ls).flatMap (childrenOf ls .folder)).map (rank ls) := by
      rw [h.roots, h.drafts, List.flatMap_map, List.map_append, List.map_flatMap]
      rfl
    rw [hall]
    refine nodup_map_rank (nodup_roots_children ls) fun i hi => ?_
    rcases List.mem_append.mp hi with hi | hi
    · exact (mem_foldersOf.mp (mem_foldersOf_of_mem_rootsOf hi)).2
    · obtain ⟨k, -, hk⟩ := List.mem_flatMap.mp hi
      exact (mem_childrenOf.mp hk).2.1

/-- The line at a position opens the draft with its rank. -/
theorem opens_iff {i number : Nat} (hi : i ∈ foldersOf ls) : Opens ls i number ↔ rank ls i = number := by
  obtain ⟨hlt, hf⟩ := mem_foldersOf.mp hi
  have hlen : (ls.take i).length = i := List.length_take_of_le (Nat.le_of_lt hlt)
  have hsame : ∀ j ∈ List.range i, isAt (ls.take i) .folder j = isAt ls .folder j := by
    intro j hj
    conv => rhs; rw [← List.take_append_drop i ls]
    exact (isAt_append (by rw [hlen]; exact List.mem_range.mp hj) _ _).symm
  rw [Opens, (agrees_addAll (ls.take i)).length_drafts, foldersOf, hlen, List.filter_congr hsame]
  exact ⟨fun h => h.2, fun h => ⟨hf, h⟩⟩

/-! ## Following numbers -/

/-- The folder of the draft with a number, with the folders of its subfolders, at most `fuel` levels down. There is none
    if a number leads to no draft, or if the way down is longer. -/
def materialise? (ds : List Draft) : (fuel : Nat) → Nat → Option Folder
  | 0, _ => none
  | fuel + 1, number =>
    ds[number]?.bind fun d => (d.children.mapM (materialise? ds fuel)).map (.mk d.name d.files)

/-- The numbers of the drafts that are met on the way, in order. -/
def visits (ds : List Draft) : (fuel : Nat) → Nat → List Nat
  | 0, _ => []
  | fuel + 1, number => number :: ((ds[number]?.map Draft.children).getD []).flatMap (visits ds fuel)

theorem mapM_eq_some {α β : Type} {f : α → Option β} {g : α → β} {xs : List α} (h : ∀ x ∈ xs, f x = some (g x)) :
    xs.mapM f = some (xs.map g) := by
  induction xs with
  | nil => rfl
  | cons x xs ih => simp [List.mapM_cons, h x List.mem_cons_self, ih fun y hy => h y (List.mem_cons_of_mem x hy)]

/-- As many levels as there are drafts from a number on are enough. -/
theorem Agrees.materialise?_rank (h : Agrees ls b) {fuel i : Nat} (hi : i ∈ foldersOf ls)
    (hfuel : b.drafts.length ≤ fuel + rank ls i) :
    materialise? b.drafts fuel (rank ls i) = some (folderAt ls i) := by
  induction fuel generalizing i with
  | zero =>
    have := h.rank_lt hi
    omega
  | succ fuel ih =>
    have hchild : ∀ j ∈ childrenOf ls .folder i,
        materialise? b.drafts fuel (rank ls j) = some (folderAt ls j) := by
      intro j hj
      have := rank_lt_rank (mem_foldersOf.mp hi).2 (lt_of_parent? (mem_childrenOf.mp hj).2.2)
      exact ih (mem_foldersOf_of_mem_childrenOf hj) (by omega)
    have hchildren : (draftAt ls i).children.mapM (materialise? b.drafts fuel) =
        some ((childrenOf ls .folder i).map (folderAt ls)) := by
      rw [draftAt, List.mapM_map]
      exact mapM_eq_some hchild
    rw [materialise?, h.getElem?_rank hi, Option.bind_some, hchildren, folderAt_eq]
    rfl

/-- The drafts that are met are those of the lines inside. -/
theorem Agrees.visits_rank (h : Agrees ls b) {fuel i : Nat} (hi : i ∈ foldersOf ls)
    (hfuel : b.drafts.length ≤ fuel + rank ls i) :
    visits b.drafts fuel (rank ls i) = (inside ls i).map (rank ls) := by
  induction fuel generalizing i with
  | zero =>
    have := h.rank_lt hi
    omega
  | succ fuel ih =>
    have hchild : ∀ j ∈ childrenOf ls .folder i,
        visits b.drafts fuel (rank ls j) = (inside ls j).map (rank ls) := by
      intro j hj
      have := rank_lt_rank (mem_foldersOf.mp hi).2 (lt_of_parent? (mem_childrenOf.mp hj).2.2)
      exact ih (mem_foldersOf_of_mem_childrenOf hj) (by omega)
    rw [visits, h.getElem?_rank hi, Option.map_some, Option.getD_some, inside_eq, List.map_cons, List.map_flatMap,
      draftAt, List.flatMap_map, List.flatMap_congr hchild]

/-! ## Every run -/

/-- **The numbers of every builder are in order.** Whatever lines a builder has taken, its numbers are orderly, and for
    each depth it knows the draft that was opened by the latest folder line of that depth. So the numbers can be
    followed down from every root folder: every one of them leads to a draft, the way ends, and what is made is what
    the builder builds. No draft is met twice on the way; the folders of the outline are those of the drafts that are
    met, one for each. -/
theorem isOrderly_addAll (ls : List (Line × Int)) :
    let b := empty.addAll ls
    let folderOf := materialise? b.drafts b.drafts.length
    let met := b.roots.flatMap (visits b.drafts b.drafts.length)
    b.IsOrderly ∧
      (∀ depth number, Entries.get? depth b.latest = some number ↔
        ∃ i, latestBefore? ls depth ls.length = some i ∧ Opens ls i number) ∧
      b.roots.mapM folderOf = some b.build.folders ∧
      met.Nodup ∧ (∀ number ∈ met, number < b.drafts.length) ∧
      met.map folderOf = b.build.walk.map fun p => some p.2 := by
  intro b folderOf met
  have h : Agrees ls b := agrees_addAll ls
  have hmet : met = ((rootsOf ls).flatMap (inside ls)).map (rank ls) := by
    have hvisits : ∀ i ∈ rootsOf ls,
        visits b.drafts b.drafts.length (rank ls i) = (inside ls i).map (rank ls) := fun i hi =>
      h.visits_rank (mem_foldersOf_of_mem_rootsOf hi) (Nat.le_add_right _ _)
    show b.roots.flatMap _ = _
    rw [h.roots, List.flatMap_map, List.map_flatMap, List.flatMap_congr hvisits]
  have hperm := inside_roots_perm ls
  have hinside : ∀ i ∈ (rootsOf ls).flatMap (inside ls), i ∈ foldersOf ls := by
    intro i hi
    obtain ⟨hlt, hf, -⟩ := mem_placedOf.mp (hperm.mem_iff.mp hi)
    exact mem_foldersOf.mpr ⟨hlt, hf⟩
  have hfolder : ∀ i ∈ foldersOf ls, folderOf (rank ls i) = some (folderAt ls i) := fun i hi =>
    h.materialise?_rank hi (Nat.le_add_right _ _)
  refine ⟨h.isOrderly (nodup_keys_latest ls), fun depth number => ?_, ?_, ?_, ?_, ?_⟩
  · rw [h.latest, Option.map_eq_some_iff]
    refine exists_congr fun i => and_congr_right fun hi => ?_
    exact (opens_iff (mem_foldersOf.mpr (isAt_of_opensAt (latestBefore?_eq_some hi).2))).symm
  · rw [folders_of_lines, h.roots, List.mapM_map]
    exact mapM_eq_some fun i hi => hfolder i (mem_foldersOf_of_mem_rootsOf hi)
  · rw [hmet]
    exact nodup_map_rank (hperm.nodup_iff.mpr (nodup_placedOf ls .folder)) fun i hi =>
      (mem_foldersOf.mp (hinside i hi)).2
  · intro number hnumber
    rw [hmet] at hnumber
    obtain ⟨i, hi, rfl⟩ := List.mem_map.mp hnumber
    exact h.rank_lt (hinside i hi)
  · rw [hmet, walk_build, List.map_map, List.map_map]
    exact List.map_congr_left fun i hi => hfolder i (hinside i hi)

end Builder

end Stencil
