import Stencil.Proofs.Outline.Origins

/-!
# `Stencil.Proofs.Outline.Nesting` — outlines that open their folders level by level

A document is properly nested if its first folder line has depth 0 and every other one is at most one level deeper
than the folder line before it. The folders that are open at a line are then the latest ones of each level, so that a
walk of the outline comes to the folders in the order in which the document names them.

## Contents
- **Levels.** In a nested document some folder is open at each level above a line, and since it was opened all
  folder lines are deeper (`IsNested.exists_opensAt`).
- **Order.** What is inside a folder line therefore stands before the next folder line as deep as it
  (`IsNested.lt_of_mem_inside`).
- **Walks.** `walk_of_nested`.
-/

namespace Stencil.Outline

open Text

variable {ls : List (Line × Int)}

/-- The depth of the line at a position. -/
def depthAt (ls : List (Line × Int)) (i : Nat) : Nat := (ls[i]?.map fun l => l.1.depth).getD 0

/-- The last folder line before a position. -/
def folderBefore? (ls : List (Line × Int)) (j : Nat) : Option Nat :=
  ((List.range j).filter (isAt ls .folder)).getLast?

/-- The first folder line has depth 0, and every other one is at most one level deeper than the folder line before
    it. -/
def IsNested (ls : List (Line × Int)) : Prop :=
  ∀ j ∈ foldersOf ls, depthAt ls j ≤ (folderBefore? ls j).elim 0 fun i => depthAt ls i + 1

instance (ls : List (Line × Int)) : Decidable (IsNested ls) :=
  inferInstanceAs (Decidable (∀ j ∈ foldersOf ls, _))

/-! ## Levels -/

theorem opensAt_iff {depth i : Nat} : opensAt ls depth i = true ↔ i ∈ foldersOf ls ∧ depthAt ls i = depth := by
  rw [mem_foldersOf]
  by_cases hi : i < ls.length
  · simp [opensAt, isAt, depthAt, hi]
  · simp [opensAt, hi]

/-- The folder line next before a position is before it, and no other stands between. -/
theorem folderBefore?_eq_some {i j : Nat} (h : folderBefore? ls j = some i) :
    i < j ∧ ∀ r ∈ foldersOf ls, r < j → r ≤ i := by
  obtain ⟨before, hsplit⟩ := List.getLast?_eq_some_iff.mp h
  have hsorted : ((List.range j).filter (isAt ls .folder)).Pairwise (· < ·) := List.pairwise_lt_range.filter _
  have hi : i ∈ (List.range j).filter (isAt ls .folder) := by simp [hsplit]
  refine ⟨List.mem_range.mp (List.mem_filter.mp hi).1, fun r hr hlt => ?_⟩
  have hmem : r ∈ (List.range j).filter (isAt ls .folder) :=
    List.mem_filter.mpr ⟨List.mem_range.mpr hlt, (mem_foldersOf.mp hr).2⟩
  rw [hsplit] at hmem hsorted
  rcases List.mem_append.mp hmem with hmem | hmem
  · exact Nat.le_of_lt ((List.pairwise_append.mp hsorted).2.2 r hmem i (List.mem_singleton_self i))
  · exact Nat.le_of_eq (List.mem_singleton.mp hmem)

/-- A folder line of a depth behind which no other one of that depth comes is the latest one. -/
theorem latestBefore?_eq_of_forall {depth i j : Nat} (hlt : i < j) (hi : opensAt ls depth i = true)
    (h : ∀ r, i < r → r < j → opensAt ls depth r = false) : latestBefore? ls depth j = some i := by
  have hrange : List.range j = List.range (i + 1) ++ (List.range (j - (i + 1))).map (i + 1 + ·) := by
    rw [← List.range_add, show i + 1 + (j - (i + 1)) = j by omega]
  have hnone : ((List.range (j - (i + 1))).map (i + 1 + ·)).filter (opensAt ls depth) = [] := by
    refine List.filter_eq_nil_iff.mpr fun r hr => ?_
    obtain ⟨k, hk, rfl⟩ := List.mem_map.mp hr
    have := List.mem_range.mp hk
    simp [h (i + 1 + k) (by omega) (by omega)]
  rw [latestBefore?, hrange, List.filter_append, hnone, List.append_nil, List.range_succ, List.filter_append,
    List.filter_cons_of_pos hi, List.filter_nil, List.getLast?_concat]

/-- **A folder is open at each level.** Above a folder line of a nested document there is one at every lower depth
    from which on all folder lines are deeper. -/
theorem IsNested.exists_opensAt (h : IsNested ls) {j : Nat} (hj : j ∈ foldersOf ls) {depth : Nat}
    (hd : depth ≤ depthAt ls j) :
    ∃ i, i ≤ j ∧ opensAt ls depth i = true ∧ ∀ r ∈ foldersOf ls, i < r → r ≤ j → depth < depthAt ls r := by
  induction j using Nat.strongRecOn with
  | ind j ih =>
    rcases Nat.eq_or_lt_of_le hd with rfl | hlt
    · exact ⟨j, Nat.le_refl j, opensAt_iff.mpr ⟨hj, rfl⟩, fun r _ hir hrj => by omega⟩
    · -- the folder line before is deep enough as well
      have hstep := h j hj
      cases hb : folderBefore? ls j with
      | none =>
        rw [hb, Option.elim_none] at hstep
        omega
      | some k =>
        rw [hb, Option.elim_some] at hstep
        have hk : k ∈ foldersOf ls := by
          have hmem := List.mem_filter.mp (List.mem_of_getLast? hb)
          have hlt : k < ls.length := by
            have := List.mem_range.mp hmem.1
            have := (mem_foldersOf.mp hj).1
            omega
          exact mem_foldersOf.mpr ⟨hlt, hmem.2⟩
        obtain ⟨hkj, hlast⟩ := folderBefore?_eq_some hb
        obtain ⟨i, hik, hopens, hdeeper⟩ := ih k hkj hk (by omega)
        refine ⟨i, by omega, hopens, fun r hr hir hrj => ?_⟩
        rcases Nat.eq_or_lt_of_le hrj with rfl | hrj
        · exact hlt
        · exact hdeeper r hr hir (hlast r hr hrj)

/-- The latest folder line of a lower depth, from which on all folder lines are deeper. -/
theorem IsNested.exists_latestBefore? (h : IsNested ls) {j : Nat} (hj : j ∈ foldersOf ls) {depth : Nat}
    (hd : depth < depthAt ls j) :
    ∃ i, i < j ∧ latestBefore? ls depth j = some i ∧ ∀ r ∈ foldersOf ls, i < r → r ≤ j → depth < depthAt ls r := by
  obtain ⟨i, hij, hopens, hdeeper⟩ := h.exists_opensAt hj (Nat.le_of_lt hd)
  have hne : i ≠ j := by
    rintro rfl
    have := (opensAt_iff.mp hopens).2
    omega
  have hlt : i < j := by omega
  refine ⟨i, hlt, latestBefore?_eq_of_forall hlt hopens fun r hir hrj => ?_, hdeeper⟩
  by_contra hr
  obtain ⟨hmem, heq⟩ := opensAt_iff.mp (by simpa using hr)
  have := hdeeper r hmem hir (Nat.le_of_lt hrj)
  omega

theorem parent?_eq {j : Nat} (hj : j ∈ foldersOf ls) : parent? ls j = enclosingBefore? ls (depthAt ls j) j := by
  have hlt := (mem_foldersOf.mp hj).1
  simp [parent?, depthAt, hlt]

/-- A folder line that has a parent is one level deeper. -/
theorem depthAt_of_parent? {i j : Nat} (hj : j ∈ foldersOf ls) (h : parent? ls j = some i) :
    i ∈ foldersOf ls ∧ depthAt ls j = depthAt ls i + 1 := by
  rw [parent?_eq hj] at h
  cases hd : depthAt ls j with
  | zero => simp [hd, enclosingBefore?] at h
  | succ above =>
    rw [hd] at h
    obtain ⟨hi, hdi⟩ := opensAt_iff.mp (latestBefore?_eq_some h).2
    exact ⟨hi, by rw [hdi]⟩

/-- Below depth 0 every folder line of a nested document has a parent, from which on all folder lines are deeper. -/
theorem IsNested.exists_parent? (h : IsNested ls) {j : Nat} (hj : j ∈ foldersOf ls) (hd : 0 < depthAt ls j) :
    ∃ i, parent? ls j = some i ∧ ∀ r ∈ foldersOf ls, i < r → r ≤ j → depthAt ls i < depthAt ls r := by
  obtain ⟨above, habove⟩ : ∃ above, depthAt ls j = above + 1 := ⟨depthAt ls j - 1, by omega⟩
  have hlt : above < depthAt ls j := by omega
  obtain ⟨i, -, hlatest, hdeeper⟩ := h.exists_latestBefore? hj hlt
  have hp : parent? ls j = some i := by rw [parent?_eq hj, habove]; exact hlatest
  have heq := (depthAt_of_parent? hj hp).2
  obtain rfl : above = depthAt ls i := by omega
  exact ⟨i, hp, hdeeper⟩

/-- Further up, a folder line and its parent have the same folders open. -/
theorem IsNested.latestBefore?_parent (h : IsNested ls) {i j : Nat} (hj : j ∈ foldersOf ls)
    (hp : parent? ls j = some i) {depth : Nat} (hd : depth < depthAt ls i) :
    latestBefore? ls depth j = latestBefore? ls depth i := by
  obtain ⟨hi, hdi⟩ := depthAt_of_parent? hj hp
  obtain ⟨k, hki, hlatest, hdeeper⟩ := h.exists_latestBefore? hi hd
  obtain ⟨i', hp', hbetween⟩ := h.exists_parent? hj (by omega)
  obtain rfl : i' = i := Option.some.inj (hp'.symm.trans hp)
  have hij := lt_of_parent? hp
  rw [hlatest]
  refine latestBefore?_eq_of_forall (by omega) (latestBefore?_eq_some hlatest).2 fun r hkr hrj => ?_
  by_contra hr
  obtain ⟨hmem, heq⟩ := opensAt_iff.mp (by simpa using hr)
  rcases Nat.lt_or_ge i' r with hir | hri
  · have := hbetween r hmem hir (Nat.le_of_lt hrj)
    omega
  · have := hdeeper r hmem hkr hri
    omega

/-! ## Order -/

/-- From a folder line on to what is in it, all folder lines are deeper. -/
theorem IsNested.deeper_of_isIn (h : IsNested ls) {i j : Nat} (hj : j ∈ foldersOf ls) (hin : IsIn ls j i) :
    depthAt ls i ≤ depthAt ls j ∧ ∀ r ∈ foldersOf ls, i < r → r ≤ j → depthAt ls i < depthAt ls r := by
  induction hin using Relation.ReflTransGen.head_induction_on with
  | refl => exact ⟨Nat.le_refl _, fun r _ hir hri => by omega⟩
  | @head j k hp _ ih =>
    obtain ⟨hk, hd⟩ := depthAt_of_parent? hj hp
    obtain ⟨hle, hdeeper⟩ := ih hk
    obtain ⟨k', hp', hbetween⟩ := h.exists_parent? hj (by omega)
    obtain rfl : k' = k := Option.some.inj (hp'.symm.trans hp)
    refine ⟨by omega, fun r hr hir hrj => ?_⟩
    rcases Nat.lt_or_ge k' r with hkr | hrk
    · have := hbetween r hr hkr hrj
      omega
    · exact hdeeper r hr hir hrk

/-- What is inside a folder line stands before a later folder line that is not deeper. -/
theorem IsNested.lt_of_mem_inside (h : IsNested ls) {i k j : Nat} (hi : i ∈ foldersOf ls) (hk : k ∈ foldersOf ls)
    (hlt : i < k) (hd : depthAt ls k ≤ depthAt ls i) (hj : j ∈ inside ls i) : j < k := by
  obtain ⟨hilt, hif⟩ := mem_foldersOf.mp hi
  obtain ⟨hjlt, hjf, hin⟩ := (mem_inside_iff hilt hif j).mp hj
  by_contra hge
  have := (h.deeper_of_isIn (mem_foldersOf.mpr ⟨hjlt, hjf⟩) hin).2 k hk hlt (by omega)
  omega

/-- The lines inside folder lines of one depth come in order, if those inside each of them do. -/
theorem IsNested.pairwise_flatMap_inside (h : IsNested ls) {is : List Nat} (hs : is.Pairwise (· < ·))
    (hmem : ∀ i ∈ is, i ∈ foldersOf ls) (hd : ∀ i ∈ is, ∀ k ∈ is, depthAt ls i = depthAt ls k)
    (hin : ∀ i ∈ is, (inside ls i).Pairwise (· < ·)) : (is.flatMap (inside ls)).Pairwise (· < ·) := by
  refine List.pairwise_flatMap.mpr ⟨hin, hs.imp_of_mem fun {i k} hi hk hlt j hj m hm => ?_⟩
  have hjk := h.lt_of_mem_inside (hmem i hi) (hmem k hk) hlt (Nat.le_of_eq (hd k hk i hi)) hj
  obtain ⟨hklt, hkf⟩ := mem_foldersOf.mp (hmem k hk)
  have hkm := ((mem_inside_iff hklt hkf m).mp hm).2.2.le
  omega

theorem pairwise_childrenOf (ls : List (Line × Int)) (kind : Kind) (i : Nat) :
    (childrenOf ls kind i).Pairwise (· < ·) := List.pairwise_lt_range.filter _

theorem IsNested.pairwise_inside (h : IsNested ls) (i : Nat) : (inside ls i).Pairwise (· < ·) := by
  have hmem : ∀ c ∈ childrenOf ls .folder i, c ∈ foldersOf ls ∧ parent? ls c = some i := fun c hc =>
    ⟨mem_foldersOf.mpr ⟨(mem_childrenOf.mp hc).1, (mem_childrenOf.mp hc).2.1⟩, (mem_childrenOf.mp hc).2.2⟩
  rw [inside_eq, List.pairwise_cons]
  refine ⟨fun j hj => ?_, ?_⟩
  · obtain ⟨c, hc, hjc⟩ := List.mem_flatMap.mp hj
    obtain ⟨hclt, hcf⟩ := mem_foldersOf.mp (hmem c hc).1
    have := lt_of_parent? (hmem c hc).2
    have := ((mem_inside_iff hclt hcf j).mp hjc).2.2.le
    omega
  · refine h.pairwise_flatMap_inside (pairwise_childrenOf ls .folder i) (fun c hc => (hmem c hc).1) ?_ fun c hc => ?_
    · intro c hc d hd
      rw [(depthAt_of_parent? (hmem c hc).1 (hmem c hc).2).2, (depthAt_of_parent? (hmem d hd).1 (hmem d hd).2).2]
    · have := lt_of_parent? (hmem c hc).2
      have := (mem_foldersOf.mp (hmem c hc).1).1
      exact h.pairwise_inside c
termination_by ls.length - i

/-- Every folder line of a nested document is placed. -/
theorem IsNested.placedOf_eq (h : IsNested ls) : placedOf ls .folder = foldersOf ls := by
  refine List.filter_congr fun j hj => ?_
  by_cases hf : isAt ls .folder j = true
  · have hin := (isIn_origin ls j).1
    have horigin : origin ls j ∈ foldersOf ls := by
      have := hin.le
      have := List.mem_range.mp hj
      exact mem_foldersOf.mpr ⟨by omega, hin.isAt_folder hf⟩
    -- a folder line without a parent has depth 0
    have hzero : depthAt ls (origin ls j) = 0 := by
      by_contra hd
      obtain ⟨i, hp, -⟩ := h.exists_parent? horigin (by omega)
      rw [(isIn_origin ls j).2] at hp
      cases hp
    have hplaced : isPlaced ls j = true := opensAt_iff.mpr ⟨horigin, hzero⟩
    simp [hf, hplaced]
  · simp [hf]

/-- The lines inside the root folder lines of a nested document are its folder lines, in order. -/
theorem IsNested.flatMap_inside (h : IsNested ls) : (rootsOf ls).flatMap (inside ls) = foldersOf ls := by
  have hroot : ∀ i ∈ rootsOf ls, i ∈ foldersOf ls ∧ depthAt ls i = 0 := fun i hi =>
    opensAt_iff.mp (List.mem_filter.mp hi).2
  have hperm := inside_roots_perm ls
  rw [h.placedOf_eq] at hperm
  refine hperm.eq_of_pairwise (fun a b _ _ hab hba => by omega) ?_ (List.pairwise_lt_range.filter _)
  refine h.pairwise_flatMap_inside (List.pairwise_lt_range.filter _) (fun i hi => (hroot i hi).1) ?_
    fun i _ => h.pairwise_inside i
  intro i hi k hk
  rw [(hroot i hi).2, (hroot k hk).2]

/-! ## Walks -/

/-- The names on the way to a folder line are those of the latest folder lines of the lower depths, and its own. -/
theorem IsNested.components_namesTo (h : IsNested ls) {j : Nat} (hj : j ∈ foldersOf ls) :
    (namesTo ls j).length = depthAt ls j + 1 ∧ (namesTo ls j)[depthAt ls j]? = some (nameAt ls j) ∧
      ∀ depth < depthAt ls j, ∃ i, latestBefore? ls depth j = some i ∧
        (namesTo ls j)[depth]? = some (nameAt ls i) := by
  induction j using Nat.strongRecOn with
  | ind j ih =>
    rcases Nat.eq_zero_or_pos (depthAt ls j) with hd | hd
    · have hnone : parent? ls j = none := parent?_of_opensAt_zero (opensAt_iff.mpr ⟨hj, hd⟩)
      rw [namesTo_of_parent?_eq_none hnone, hd]
      exact ⟨rfl, rfl, fun depth hlt => by omega⟩
    · obtain ⟨i, hp, -⟩ := h.exists_parent? hj hd
      obtain ⟨hi, hdj⟩ := depthAt_of_parent? hj hp
      obtain ⟨hlength, hown, habove⟩ := ih i (lt_of_parent? hp) hi
      rw [namesTo_of_parent? hp, List.length_append, hlength, hdj]
      refine ⟨rfl, ?_, fun depth hlt => ?_⟩
      · rw [List.getElem?_append_right (by omega), hlength, Nat.sub_self]
        rfl
      · rw [List.getElem?_append_left (by omega)]
        rcases Nat.eq_or_lt_of_le (Nat.le_of_lt_succ hlt) with rfl | hlt
        · rw [parent?_eq hj, hdj] at hp
          exact ⟨i, hp, hown⟩
        · rw [h.latestBefore?_parent hj hp hlt]
          exact habove depth hlt

/-- **Nested documents keep their order.** If the first folder line has depth 0 and every other one is at most one
    level deeper than the folder line before it, a walk of the outline meets the folders that the folder lines make
    in the order of these lines, wherever the file lines are. With each come as many names as its depth and one more:
    at its own depth its own name, at each lower depth the name of the latest folder line before it of that depth. -/
theorem walk_of_nested (ls : List (Line × Int)) (h : IsNested ls) :
    (Builder.empty.addAll ls).build.walk = (foldersOf ls).map (fun j => (namesTo ls j, folderAt ls j)) ∧
      ∀ j ∈ foldersOf ls,
        (namesTo ls j).length = depthAt ls j + 1 ∧
        (namesTo ls j)[depthAt ls j]? = some (nameAt ls j) ∧
        ∀ depth < depthAt ls j, ∃ i, latestBefore? ls depth j = some i ∧
          (namesTo ls j)[depth]? = some (nameAt ls i) := by
  refine ⟨?_, fun j hj => h.components_namesTo hj⟩
  rw [walk_build, h.flatMap_inside]

/-- Back from `C` over two levels to `D`; a file far too deep and one at depth 0 belong to nothing and change
    nothing. -/
theorem walk_of_nested_dedent :
    let text := "\tx\nA:\n\tB:\n\t\tC:\n\t\t\t\t\ty\n\tD:\n\nE:\n".toList
    IsNested (classifyFrom 1 (lines text)) ∧
      (ofText text).walk.map Prod.fst =
        [["A"], ["A", "B"], ["A", "B", "C"], ["A", "D"], ["E"]] := by
  intro text
  have hnested : IsNested (classifyFrom 1 (lines text)) := by decide +kernel
  refine ⟨hnested, ?_⟩
  have h := congrArg (List.map Prod.fst) (walk_of_nested (classifyFrom 1 (lines text)) hnested).1
  exact h.trans (by decide +kernel)

end Stencil.Outline
