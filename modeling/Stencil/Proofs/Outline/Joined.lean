import Stencil.Proofs.Outline.Document

/-!
# `Stencil.Proofs.Outline.Joined` — documents one after the other

When a second document starts, the folders of the first one are still remembered at their depths. If no line
of the second document is lost, none of them gets to see these folders: whatever it looks for, it finds among
the lines of its own document, which come later.

## Contents
- **Lines behind others.** `ms` stands behind `ls` and is `bs` apart from the numbers of the lines. What is
  said of a line alone is said of both.
- **Parents.** If no line of `bs` is lost, the parents in `ms` are those in `bs`, moved up behind `ls`
  (`parent?_behind`).
- **Folders.** So each of the two parts makes its own folders, and only lines of the first part are lost.
- **Documents.** `ofText_append`.
-/

namespace Stencil.Outline

open Text

variable {ls ms bs : List (Line × Int)}

/-! ## Lines behind others -/

theorem getElem?_behind (ls : List (Line × Int)) (hms : ms.map Prod.fst = bs.map Prod.fst) (k : Nat) :
    (ls ++ ms)[ls.length + k]?.map Prod.fst = bs[k]?.map Prod.fst := by
  rw [List.getElem?_append_right (Nat.le_add_right _ _), Nat.add_sub_cancel_left, ← List.getElem?_map, hms,
    List.getElem?_map]

theorem isAt_behind (ls : List (Line × Int)) (hms : ms.map Prod.fst = bs.map Prod.fst) (kind : Kind) (k : Nat) :
    isAt (ls ++ ms) kind (ls.length + k) = isAt bs kind k := by
  have h := congrArg (Option.any fun l : Line => l.kind = kind) (getElem?_behind ls hms k)
  rwa [Option.any_map, Option.any_map] at h

theorem opensAt_behind (ls : List (Line × Int)) (hms : ms.map Prod.fst = bs.map Prod.fst) (depth k : Nat) :
    opensAt (ls ++ ms) depth (ls.length + k) = opensAt bs depth k := by
  have h := congrArg (Option.any fun l : Line => l.kind = .folder ∧ l.depth = depth) (getElem?_behind ls hms k)
  rwa [Option.any_map, Option.any_map] at h

theorem nameAt_behind (ls : List (Line × Int)) (hms : ms.map Prod.fst = bs.map Prod.fst) (k : Nat) :
    nameAt (ls ++ ms) (ls.length + k) = nameAt bs k := by
  have h := congrArg (Option.map Line.name) (getElem?_behind ls hms k)
  rw [Option.map_map, Option.map_map] at h
  exact congrArg (Option.getD · "") h

theorem fileAt?_behind (ls : List (Line × Int)) (hms : ms.map Prod.fst = bs.map Prod.fst) (k : Nat) :
    fileAt? (ls ++ ms) (ls.length + k) = fileAt? bs k := by
  have h := congrArg (Option.map Builder.fileOf) (getElem?_behind ls hms k)
  rwa [Option.map_map, Option.map_map] at h

/-- The positions with a property are those among the first lines and, moved up, those among the others. -/
theorem filter_range_behind (hms : ms.map Prod.fst = bs.map Prod.fst) {p q r : Nat → Bool}
    (hq : ∀ i < ls.length, p i = q i) (hr : ∀ k < bs.length, p (ls.length + k) = r k) :
    (List.range (ls ++ ms).length).filter p =
      (List.range ls.length).filter q ++ ((List.range bs.length).filter r).map (ls.length + ·) := by
  have hlen : ms.length = bs.length := by
    have h := congrArg List.length hms
    rwa [List.length_map, List.length_map] at h
  rw [List.length_append, hlen, List.range_add, List.filter_append, List.filter_map]
  congr 1
  · exact List.filter_congr fun i hi => hq i (List.mem_range.mp hi)
  · exact congrArg _ (List.filter_congr fun k hk => hr k (List.mem_range.mp hk))

/-! ## Parents -/

/-- The latest folder line of a depth is one of the later lines, if these have one. -/
theorem latestBefore?_behind (ls : List (Line × Int)) (hms : ms.map Prod.fst = bs.map Prod.fst) (depth j : Nat) :
    latestBefore? (ls ++ ms) depth (ls.length + j) =
      ((latestBefore? bs depth j).map (ls.length + ·)).or (latestBefore? ls depth ls.length) := by
  have hbehind : (opensAt (ls ++ ms) depth ∘ (ls.length + ·)) = opensAt bs depth :=
    funext fun k => opensAt_behind ls hms depth k
  rw [← latestBefore?_append (Nat.le_refl _) ms, latestBefore?, latestBefore?, latestBefore?, List.range_add,
    List.filter_append, List.getLast?_append, List.filter_map, hbehind, List.getLast?_map]

/-- **Where no line is lost, no line has a parent in front of the document.** -/
theorem parent?_behind (ls : List (Line × Int)) (hms : ms.map Prod.fst = bs.map Prod.fst) (hb : lostOf bs = [])
    (k : Nat) : parent? (ls ++ ms) (ls.length + k) = (parent? bs k).map (ls.length + ·) := by
  have hline := getElem?_behind ls hms k
  cases hk : bs[k]? with
  | none =>
    rw [hk, Option.map_none, Option.map_eq_none_iff] at hline
    rw [parent?, parent?, hline, hk]
    rfl
  | some l =>
    rw [hk, Option.map_some] at hline
    obtain ⟨m, hm, heq⟩ := Option.map_eq_some_iff.mp hline
    rw [parent?, parent?, hm, hk, Option.bind_some, Option.bind_some, heq]
    cases hd : l.1.depth with
    | zero => rfl
    | succ above =>
      rw [enclosingBefore?, enclosingBefore?, latestBefore?_behind ls hms]
      cases hlatest : latestBefore? bs above k with
      | some i => rfl
      | none =>
        -- nothing encloses the line in its own document, where it would be lost
        have hlost : k ∈ lostOf bs := by
          have hlt : k < bs.length := (List.getElem?_eq_some_iff.mp hk).1
          have hparent : parent? bs k = none := by rw [parent?, hk, Option.bind_some, hd]; exact hlatest
          have hopens : opensAt bs 0 k = false := by simp [opensAt, hk, hd]
          simp [lostOf, hlt, hparent, hopens]
        rw [hb] at hlost
        cases hlost

/-! ## Folders -/

theorem rootsOf_behind (ls : List (Line × Int)) (hms : ms.map Prod.fst = bs.map Prod.fst) :
    rootsOf (ls ++ ms) = rootsOf ls ++ (rootsOf bs).map (ls.length + ·) :=
  filter_range_behind hms (fun _ hi => opensAt_append hi ms 0) fun k _ => opensAt_behind ls hms 0 k

theorem lostOf_behind (ls : List (Line × Int)) (hms : ms.map Prod.fst = bs.map Prod.fst) (hb : lostOf bs = []) :
    lostOf (ls ++ ms) = lostOf ls := by
  have h : lostOf (ls ++ ms) = lostOf ls ++ (lostOf bs).map (ls.length + ·) := by
    refine filter_range_behind hms (fun i hi => ?_) fun k _ => ?_
    · rw [parent?_append hi, opensAt_append hi]
    · simp only [parent?_behind ls hms hb, opensAt_behind ls hms, Option.map_eq_none_iff]
  rw [h, hb, List.map_nil, List.append_nil]

/-- Lines behind others have no part in what those enclose. -/
theorem childrenOf_front (hms : ms.map Prod.fst = bs.map Prod.fst) (hb : lostOf bs = []) (kind : Kind) {i : Nat}
    (hi : i < ls.length) : childrenOf (ls ++ ms) kind i = childrenOf ls kind i := by
  have h : childrenOf (ls ++ ms) kind i =
      childrenOf ls kind i ++ ((List.range bs.length).filter fun _ => false).map (ls.length + ·) := by
    refine filter_range_behind hms (fun j hj => ?_) fun k _ => ?_
    · rw [isAt_append hj, parent?_append hj]
    · rw [parent?_behind ls hms hb, decide_eq_false_iff_not, Option.map_eq_some_iff]
      rintro ⟨-, j, -, hj⟩
      omega
  rw [h, List.filter_false, List.map_nil, List.append_nil]

theorem childrenOf_behind (hms : ms.map Prod.fst = bs.map Prod.fst) (hb : lostOf bs = []) (kind : Kind) (k : Nat) :
    childrenOf (ls ++ ms) kind (ls.length + k) = (childrenOf bs kind k).map (ls.length + ·) := by
  have h : childrenOf (ls ++ ms) kind (ls.length + k) =
      (List.range ls.length).filter (fun _ => false) ++ (childrenOf bs kind k).map (ls.length + ·) := by
    refine filter_range_behind hms (fun j hj => ?_) fun j _ => ?_
    · rw [parent?_append hj, decide_eq_false_iff_not]
      rintro ⟨-, hp⟩
      have := lt_of_parent? hp
      omega
    · rw [isAt_behind ls hms, parent?_behind ls hms hb]
      simp [Option.map_eq_some_iff]
  rw [h, List.filter_false, List.nil_append]

theorem folderAt_front (hms : ms.map Prod.fst = bs.map Prod.fst) (hb : lostOf bs = []) {i : Nat}
    (hi : i < ls.length) : folderAt (ls ++ ms) i = folderAt ls i := by
  rw [folderAt_eq, folderAt_eq, nameAt_append hi, childrenOf_front hms hb _ hi, childrenOf_front hms hb _ hi]
  congr 1
  · exact List.filterMap_congr fun j hj => fileAt?_append (mem_childrenOf.mp hj).1 ms
  · refine List.map_congr_left fun j hj => ?_
    have hj' := mem_childrenOf.mp hj
    have := lt_of_parent? hj'.2.2
    exact folderAt_front hms hb hj'.1
termination_by ls.length - i

theorem folderAt_behind (hms : ms.map Prod.fst = bs.map Prod.fst) (hb : lostOf bs = []) (k : Nat) :
    folderAt (ls ++ ms) (ls.length + k) = folderAt bs k := by
  rw [folderAt_eq, folderAt_eq, nameAt_behind ls hms, childrenOf_behind hms hb, childrenOf_behind hms hb,
    List.filterMap_map, List.map_map]
  congr 1
  · exact List.filterMap_congr fun j _ => fileAt?_behind ls hms j
  · refine List.map_congr_left fun j hj => ?_
    have hj' := mem_childrenOf.mp hj
    have := lt_of_parent? hj'.2.2
    exact folderAt_behind hms hb j
termination_by bs.length - k

/-! ## Documents -/

/-- The lines of a text and another one on new lines are those of both, numbered on. -/
theorem classifyFrom_lines_append (as bs : List Char) :
    ∃ number, classifyFrom 1 (lines (as ++ '\n' :: bs)) =
      classifyFrom 1 (lines as) ++ classifyFrom number (lines bs) := by
  rcases lines_append_newline as bs with h | h
  · exact ⟨_, by rw [h, classifyFrom_append]⟩
  · exact ⟨_, by rw [h, classifyFrom_append, classifyFrom, if_pos (by decide)]⟩

/-- **Documents one after the other.** If no line of the second document is lost, both documents give
    their folders, and what the first one loses is lost with the same messages. -/
theorem ofText_append (as bs : List Char) (h : (ofText bs).dropped = []) :
    ofText (as ++ '\n' :: bs) =
      { folders := (ofText as).folders ++ (ofText bs).folders, dropped := (ofText as).dropped } := by
  obtain ⟨number, hlines⟩ := classifyFrom_lines_append as bs
  have hb := lostOf_eq_nil_of_dropped h
  have hms : (classifyFrom number (lines bs)).map Prod.fst = (classifyFrom 1 (lines bs)).map Prod.fst := by
    rw [map_fst_classifyFrom, map_fst_classifyFrom]
  have hfolders : (ofText (as ++ '\n' :: bs)).folders = (ofText as).folders ++ (ofText bs).folders := by
    rw [folders_ofText, folders_ofText, folders_ofText, hlines, rootsOf_behind _ hms, List.map_append, List.map_map]
    congr 1
    · refine List.map_congr_left fun i hi => folderAt_front hms hb ?_
      exact List.mem_range.mp (List.mem_filter.mp hi).1
    · exact List.map_congr_left fun k _ => folderAt_behind hms hb k
  have hdropped : (ofText (as ++ '\n' :: bs)).dropped = (ofText as).dropped := by
    rw [dropped_ofText, dropped_ofText, hlines, lostOf_behind _ hms hb]
    refine congrArg _ (List.filterMap_congr fun i hi => dropAt?_append ?_ _)
    exact List.mem_range.mp (List.mem_filter.mp hi).1
  rw [← hfolders, ← hdropped]

/-- The folder `B` of the first document is still open when the second one starts, but a file as deep as those in
    `B` belongs to `D`. The first document ends in a CR and loses a line. -/
theorem ofText_append_open_folder :
    let as := "A:\n\tB:\n\t\t\ty\r".toList
    let bs := "C:\n\tD:\n\t\tx".toList
    (ofText bs).dropped = [] ∧ (ofText as).dropped.length = 1 ∧
      ofText (as ++ '\n' :: bs) =
        { folders := (ofText as).folders ++ (ofText bs).folders, dropped := (ofText as).dropped } := by
  intro as bs
  have hb : (ofText bs).dropped = [] := by decide +kernel
  exact ⟨hb, by decide +kernel, ofText_append as bs hb⟩

end Stencil.Outline
