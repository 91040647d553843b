import Stencil.Proofs.Outline.Origins

/-!
# `Stencil.Proofs.Outline.Growth` — what one more line adds to an outline

A builder can be asked for its outline at any time. This module compares the outlines before and after a line: they
differ in one place at most, where the line's folder or file has been put behind what was there.

## Contents
- **Addresses.** An address leads from the root folders down to a folder by its place among its siblings. `Folder.at?`
  is the folder there, `Folder.entryAt?` its name and files, and `Folder.modifyAt` changes that folder alone.
- **Lines.** `addressOf` is the address of the folder that a folder line makes.
- **One more line.** A folder line makes the same folder as before if the parent of the new line is not in it
  (`folderAt_append_of_not_isIn`). If it is, the folder is changed at the address of the parent
  (`folderAt_append_of_isIn`).
- **Growth.** `build_add`.
-/

namespace Stencil

/-! ## Addresses -/

namespace Folder

/-- The folder at an address below a folder: the place of a subfolder, then the address below that one. -/
def at? : List Nat → Folder → Option Folder
  | [], f => some f
  | k :: a, f => f.folders[k]?.bind (at? a)

/-- The name and the files of the folder at an address. -/
def entryAt? (a : List Nat) (f : Folder) : Option (String × List File) := (f.at? a).map fun g => (g.name, g.files)

/-- A folder with the folder at an address below it changed. -/
def modifyAt (change : Folder → Folder) : List Nat → Folder → Folder
  | [], f => change f
  | k :: a, .mk name files folders => .mk name files (folders.modify k (modifyAt change a))

/-- A folder with what a line names put at its end: an empty subfolder, or a file. -/
def attach (line : Line) : Folder → Folder
  | .mk name files folders =>
    match line.kind with
    | .folder => .mk name files (folders ++ [.mk line.name [] []])
    | .file => .mk name (files ++ [Builder.fileOf line]) folders

theorem entryAt?_cons (k : Nat) (a : List Nat) (f : Folder) :
    entryAt? (k :: a) f = f.folders[k]?.bind (entryAt? a) := by
  rw [entryAt?, at?]
  cases f.folders[k]? <;> rfl

/-- A folder behind the others has no part in what is at their addresses. -/
theorem bind_entryAt?_concat (fs : List Folder) (name : String) (k : Nat) (a : List Nat) :
    (fs ++ [.mk name [] []])[k]?.bind (entryAt? a) =
      if k :: a = [fs.length] then some (name, []) else fs[k]?.bind (entryAt? a) := by
  rcases Nat.lt_trichotomy k fs.length with hlt | rfl | hgt
  · rw [List.getElem?_append_left hlt, if_neg (by simp; omega)]
  · rw [List.getElem?_concat_length, List.getElem?_eq_none (Nat.le_refl _), Option.bind_some, Option.bind_none]
    cases a with
    | nil => rw [if_pos rfl]; rfl
    | cons m a => rw [entryAt?_cons, if_neg (by simp)]; rfl
  · rw [List.getElem?_eq_none (by simp; omega), List.getElem?_eq_none (by omega), if_neg (by simp; omega)]

/-- A subfolder that is attached is the only new entry. -/
theorem entryAt?_attach_folder {line : Line} (h : line.kind = .folder) (f : Folder) (a : List Nat) :
    entryAt? a (f.attach line) = if a = [f.folders.length] then some (line.name, []) else entryAt? a f := by
  obtain ⟨name, files, folders⟩ := f
  cases a with
  | nil => simp [attach, h, entryAt?, at?, Folder.name, Folder.files]
  | cons k a =>
    rw [entryAt?_cons, entryAt?_cons]
    simp only [attach, h]
    exact bind_entryAt?_concat folders line.name k a

/-- A file that is attached changes the folder's own entry and no other. -/
theorem entryAt?_attach_file {line : Line} (h : line.kind = .file) (f : Folder) (a : List Nat) :
    entryAt? a (f.attach line) =
      if a = [] then some (f.name, f.files ++ [Builder.fileOf line]) else entryAt? a f := by
  obtain ⟨name, files, folders⟩ := f
  cases a with
  | nil => simp [attach, h, entryAt?, at?, Folder.name, Folder.files]
  | cons k a =>
    rw [entryAt?_cons, entryAt?_cons]
    simp [attach, h, Folder.folders]

/-- **Only one entry changes below an address** if a change of the folder there changes one entry only. -/
theorem entryAt?_modifyAt {change : Folder → Folder} {spot : List Nat} {e : Option (String × List File)} {g : Folder}
    (hchange : ∀ a, entryAt? a (change g) = if a = spot then e else entryAt? a g) {f : Folder} {above : List Nat}
    (h : f.at? above = some g) (a : List Nat) :
    entryAt? a (f.modifyAt change above) = if a = above ++ spot then e else entryAt? a f := by
  induction above generalizing f a with
  | nil =>
    obtain rfl : f = g := Option.some.inj h
    exact hchange a
  | cons k above ih =>
    obtain ⟨name, files, folders⟩ := f
    obtain ⟨c, hc, hg⟩ := Option.bind_eq_some_iff.mp h
    cases a with
    | nil => simp [modifyAt, entryAt?, at?, Folder.name, Folder.files]
    | cons m a =>
      rw [entryAt?_cons, entryAt?_cons, modifyAt]
      show (folders.modify k (modifyAt change above))[m]?.bind (entryAt? a) = _
      by_cases hkm : k = m
      · subst hkm
        have hck : folders[k]? = some c := hc
        rw [List.getElem?_modify_eq, hck, Option.map_eq_map, Option.map_some, Option.bind_some, ih hg]
        simp [Folder.folders, hck]
      · rw [List.getElem?_modify_ne _ _ hkm, if_neg (by simp [Ne.symm hkm])]
        rfl

end Folder

namespace Outline

/-- The folder at an address: the place of a root folder, then the address below that one. -/
def at? (o : Outline) : List Nat → Option Folder
  | [] => none
  | k :: a => o.folders[k]?.bind (Folder.at? a)

/-- The name and the files of the folder at an address. -/
def entryAt? (o : Outline) (a : List Nat) : Option (String × List File) :=
  (o.at? a).map fun f => (f.name, f.files)

/-- An outline with the folder at an address changed. -/
def modifyAt (o : Outline) (change : Folder → Folder) : List Nat → Outline
  | [] => o
  | k :: a => { o with folders := o.folders.modify k (Folder.modifyAt change a) }

theorem entryAt?_cons (o : Outline) (k : Nat) (a : List Nat) :
    o.entryAt? (k :: a) = o.folders[k]?.bind (Folder.entryAt? a) := by
  rw [entryAt?, at?]
  cases o.folders[k]? <;> rfl

/-- A root folder behind the others is the only new entry. -/
theorem entryAt?_concat (o : Outline) (name : String) (a : List Nat) :
    entryAt? { o with folders := o.folders ++ [.mk name [] []] } a =
      if a = [o.folders.length] then some (name, []) else o.entryAt? a := by
  cases a with
  | nil => rfl
  | cons k a =>
    rw [entryAt?_cons, entryAt?_cons]
    exact Folder.bind_entryAt?_concat o.folders name k a

theorem entryAt?_modifyAt {change : Folder → Folder} {spot : List Nat} {e : Option (String × List File)} {g : Folder}
    (hchange : ∀ a, Folder.entryAt? a (change g) = if a = spot then e else Folder.entryAt? a g) {o : Outline}
    {above : List Nat} (h : o.at? above = some g) (a : List Nat) :
    (o.modifyAt change above).entryAt? a = if a = above ++ spot then e else o.entryAt? a := by
  cases above with
  | nil => cases h
  | cons k above =>
    cases a with
    | nil => rfl
    | cons m a =>
      -- the outline's folders are looked up as the subfolders of one folder
      have hfolder := @Folder.entryAt?_modifyAt change spot e g hchange (.mk "" [] o.folders) (k :: above) h (m :: a)
      rw [Folder.entryAt?_cons, Folder.entryAt?_cons] at hfolder
      rw [entryAt?_cons, entryAt?_cons]
      exact hfolder

/-! ## Lines -/

variable {ls : List (Line × Int)}

/-- The address of the folder that the folder line at a position makes, if its origin is a root folder. -/
def addressOf (ls : List (Line × Int)) (j : Nat) : List Nat :=
  match _h : parent? ls j with
  | none => [(rootsOf ls).idxOf j]
  | some i => addressOf ls i ++ [(childrenOf ls .folder i).idxOf j]
termination_by j
decreasing_by exact lt_of_parent? _h

theorem addressOf_of_parent?_eq_none {j : Nat} (h : parent? ls j = none) :
    addressOf ls j = [(rootsOf ls).idxOf j] := by
  rw [addressOf]
  split
  · rfl
  · next i hi => rw [h] at hi; cases hi

theorem addressOf_of_parent? {i j : Nat} (h : parent? ls j = some i) :
    addressOf ls j = addressOf ls i ++ [(childrenOf ls .folder i).idxOf j] := by
  rw [addressOf]
  split
  · next hnone => rw [h] at hnone; cases hnone
  · next k hk => rw [h] at hk; rw [Option.some.inj hk]

/-! ## One more line -/

/-- The line behind makes an empty folder, if it is a folder line. -/
theorem folderAt_length (ls : List (Line × Int)) (l : Line × Int) :
    folderAt (ls ++ [l]) ls.length = .mk l.1.name [] [] := by
  rw [folderAt_eq, childrenOf_length, childrenOf_length]
  simp [nameAt]

/-- The folder of an earlier line, if the line behind does not belong to it. -/
theorem folderAt_append {i : Nat} (hi : i < ls.length) (l : Line × Int)
    (h : enclosingBefore? ls l.1.depth ls.length ≠ some i) :
    folderAt (ls ++ [l]) i = .mk (nameAt ls i) ((childrenOf ls .file i).filterMap (fileAt? ls))
      ((childrenOf ls .folder i).map (folderAt (ls ++ [l]))) := by
  have hfiles : (childrenOf ls .file i).filterMap (fileAt? (ls ++ [l])) =
      (childrenOf ls .file i).filterMap (fileAt? ls) :=
    List.filterMap_congr fun j hj => fileAt?_append (mem_childrenOf.mp hj).1 [l]
  rw [folderAt_eq, nameAt_append hi, childrenOf_append, childrenOf_append, if_neg fun hc => h hc.2,
    if_neg fun hc => h hc.2, List.append_nil, List.append_nil, hfiles]

/-- **Where the line behind does not belong, nothing changes.** -/
theorem folderAt_append_of_not_isIn {i : Nat} (hi : i < ls.length) (l : Line × Int)
    (h : ∀ p, enclosingBefore? ls l.1.depth ls.length = some p → ¬ IsIn ls p i) :
    folderAt (ls ++ [l]) i = folderAt ls i := by
  rw [folderAt_append hi l fun he => h i he .refl, folderAt_eq ls i]
  refine congrArg _ (List.map_congr_left fun j hj => ?_)
  obtain ⟨hlt, -, hp⟩ := mem_childrenOf.mp hj
  have := lt_of_parent? hp
  exact folderAt_append_of_not_isIn hlt l fun p he hin => h p he (hin.tail hp)
termination_by ls.length - i

/-- The parent of the line behind gets what that line names. -/
theorem folderAt_append_parent {p : Nat} (hp : p < ls.length) (l : Line × Int)
    (h : enclosingBefore? ls l.1.depth ls.length = some p) :
    folderAt (ls ++ [l]) p = (folderAt ls p).attach l.1 := by
  have hfiles : (childrenOf ls .file p).filterMap (fileAt? (ls ++ [l])) =
      (childrenOf ls .file p).filterMap (fileAt? ls) :=
    List.filterMap_congr fun j hj => fileAt?_append (mem_childrenOf.mp hj).1 [l]
  have hfile : fileAt? (ls ++ [l]) ls.length = some (Builder.fileOf l.1) := by simp [fileAt?]
  -- the subfolders come later than the parent, so it is not in them
  have hfolders : (childrenOf ls .folder p).map (folderAt (ls ++ [l])) =
      (childrenOf ls .folder p).map (folderAt ls) := by
    refine List.map_congr_left fun j hj => ?_
    obtain ⟨hlt, -, hpj⟩ := mem_childrenOf.mp hj
    refine folderAt_append_of_not_isIn hlt l fun q hq hin => ?_
    obtain rfl : p = q := Option.some.inj (h.symm.trans hq)
    have := hin.le
    have := lt_of_parent? hpj
    omega
  rw [folderAt_eq, folderAt_eq ls p, nameAt_append hp, childrenOf_append, childrenOf_append, List.filterMap_append,
    List.map_append, hfiles, hfolders, h]
  cases hk : l.1.kind <;> simp [Folder.attach, hk, hfile, folderAt_length]

/-- Of folder lines with the same parent, or none, only the one that the parent of the line behind is in is
    changed. -/
theorem map_folderAt_append {is : List Nat} (hd : is.Nodup) (hmem : ∀ i ∈ is, i < ls.length)
    (hparent : ∀ i ∈ is, ∀ k ∈ is, parent? ls i = parent? ls k) {l : Line × Int} {p c : Nat}
    (he : enclosingBefore? ls l.1.depth ls.length = some p) (hc : c ∈ is) (hin : IsIn ls p c)
    {change : Folder → Folder} (hchange : folderAt (ls ++ [l]) c = change (folderAt ls c)) :
    is.map (folderAt (ls ++ [l])) = (is.map (folderAt ls)).modify (is.idxOf c) change := by
  rw [modify_map hd (List.getElem?_idxOf hc)]
  refine List.map_congr_left fun i hi => ?_
  by_cases hic : i = c
  · rw [if_pos hic, hic, hchange]
  · rw [if_neg hic]
    refine folderAt_append_of_not_isIn (hmem i hi) l fun q hq hqi => ?_
    obtain rfl : p = q := Option.some.inj (he.symm.trans hq)
    exact hic (hqi.eq_of_parent? hin (hparent i hi c hc))

/-- **Where the line behind belongs, the folder of its parent changes**, and nothing else. -/
theorem folderAt_append_of_isIn {l : Line × Int} {p i : Nat} (hp : p < ls.length)
    (he : enclosingBefore? ls l.1.depth ls.length = some p) (hf : isAt ls .folder p = true) (hin : IsIn ls p i) :
    ∃ a, addressOf ls p = addressOf ls i ++ a ∧ (folderAt ls i).at? a = some (folderAt ls p) ∧
      folderAt (ls ++ [l]) i = (folderAt ls i).modifyAt (Folder.attach l.1) a := by
  induction hin with
  | refl => exact ⟨[], by simp, rfl, folderAt_append_parent hp l he⟩
  | @tail c i hin hpc ih =>
    obtain ⟨a, haddress, hat, hchange⟩ := ih
    have hci := lt_of_parent? hpc
    have hcp := IsIn.le hin
    have hmem : c ∈ childrenOf ls .folder i := mem_childrenOf.mpr ⟨by omega, IsIn.isAt_folder hin hf, hpc⟩
    have hnodup : (childrenOf ls .folder i).Nodup := List.nodup_range.filter _
    have hchildren := map_folderAt_append hnodup (fun j hj => (mem_childrenOf.mp hj).1)
      (fun j hj k hk => (mem_childrenOf.mp hj).2.2.trans (mem_childrenOf.mp hk).2.2.symm) he hmem hin hchange
    have hne : enclosingBefore? ls l.1.depth ls.length ≠ some i := fun h => by
      obtain rfl : p = i := Option.some.inj (he.symm.trans h)
      omega
    refine ⟨(childrenOf ls .folder i).idxOf c :: a, ?_, ?_, ?_⟩
    · rw [haddress, addressOf_of_parent? hpc, List.append_assoc, List.singleton_append]
    · rw [Folder.at?, folderAt_eq ls i]
      simp [Folder.folders, List.getElem?_idxOf hmem, hat]
    · rw [folderAt_append (by omega) l hne, hchildren, folderAt_eq ls i]
      rfl

/-! ## Growth -/

theorem eq_of_parts {o o' : Outline} (hfolders : o.folders = o'.folders) (hdropped : o.dropped = o'.dropped) :
    o = o' := by
  cases o
  cases o'
  exact congr (congrArg Outline.mk hfolders) hdropped

theorem mem_rootsOf {i : Nat} : i ∈ rootsOf ls ↔ i < ls.length ∧ opensAt ls 0 i = true := by
  simp [rootsOf]

theorem folders_add (ls : List (Line × Int)) (l : Line × Int) :
    ((Builder.empty.addAll ls).add l.1 l.2).build.folders =
      (rootsOf (ls ++ [l])).map (folderAt (ls ++ [l])) := by
  rw [← Builder.addAll_append, folders_of_lines]

theorem dropped_add (ls : List (Line × Int)) (l : Line × Int) :
    ((Builder.empty.addAll ls).add l.1 l.2).build.dropped =
      (Builder.empty.addAll ls).build.dropped ++
        if enclosingBefore? ls l.1.depth ls.length = none ∧ ¬ (l.1.kind = .folder ∧ l.1.depth = 0)
        then [(Drop.mk l.2 l.1.kind l.1.name l.1.depth).message] else [] := by
  have hold : (lostOf ls).filterMap (dropAt? (ls ++ [l])) = (lostOf ls).filterMap (dropAt? ls) :=
    List.filterMap_congr fun i hi => dropAt?_append (List.mem_range.mp (List.mem_filter.mp hi).1) [l]
  rw [← Builder.addAll_append, dropped_of_lines, dropped_of_lines, lostOf_append, List.filterMap_append, hold,
    List.map_append]
  congr 1
  split <;> simp [dropAt?]

/-- A folder line of depth 0 puts an empty root folder behind the others. -/
theorem build_add_of_root {l : Line × Int} (h : l.1.kind = .folder ∧ l.1.depth = 0) :
    ((Builder.empty.addAll ls).add l.1 l.2).build =
      { (Builder.empty.addAll ls).build with
        folders := (Builder.empty.addAll ls).build.folders ++ [.mk l.1.name [] []] } := by
  have hnone : enclosingBefore? ls l.1.depth ls.length = none := by rw [h.2]; rfl
  have hold : (rootsOf ls).map (folderAt (ls ++ [l])) = (rootsOf ls).map (folderAt ls) :=
    List.map_congr_left fun i hi =>
      folderAt_append_of_not_isIn (mem_rootsOf.mp hi).1 l fun p hp => by rw [hnone] at hp; cases hp
  have hfolders := folders_add ls l
  rw [rootsOf_append, if_pos h, List.map_append, hold, List.map_singleton, folderAt_length,
    ← folders_of_lines] at hfolders
  have hdropped := dropped_add ls l
  rw [if_neg fun hc => hc.2 h, List.append_nil] at hdropped
  exact eq_of_parts hfolders hdropped

/-- A line that opens no root folder and belongs to none leaves the folders as they are. -/
theorem build_add_of_not_mem_rootsOf {l : Line × Int} (h : ¬ (l.1.kind = .folder ∧ l.1.depth = 0))
    (hout : ∀ p, enclosingBefore? ls l.1.depth ls.length = some p → origin ls p ∉ rootsOf ls) :
    ((Builder.empty.addAll ls).add l.1 l.2).build =
      { (Builder.empty.addAll ls).build with
        dropped := (Builder.empty.addAll ls).build.dropped ++
          if enclosingBefore? ls l.1.depth ls.length = none
          then [(Drop.mk l.2 l.1.kind l.1.name l.1.depth).message] else [] } := by
  have hold : (rootsOf ls).map (folderAt (ls ++ [l])) = (rootsOf ls).map (folderAt ls) := by
    refine List.map_congr_left fun i hi => folderAt_append_of_not_isIn (mem_rootsOf.mp hi).1 l fun p hp hin => ?_
    refine hout p hp ?_
    rw [hin.origin_eq, origin_of_parent?_eq_none (parent?_of_opensAt_zero (mem_rootsOf.mp hi).2)]
    exact hi
  have hfolders := folders_add ls l
  rw [rootsOf_append, if_neg h, List.append_nil, hold, ← folders_of_lines] at hfolders
  have hdropped := dropped_add ls l
  simp only [h, not_false_eq_true, and_true] at hdropped
  exact eq_of_parts hfolders hdropped

/-- A line whose parent has a root folder as its origin changes the folder of the parent. -/
theorem build_add_of_mem_rootsOf {l : Line × Int} (h : ¬ (l.1.kind = .folder ∧ l.1.depth = 0)) {p : Nat}
    (he : enclosingBefore? ls l.1.depth ls.length = some p) (hr : origin ls p ∈ rootsOf ls) :
    (Builder.empty.addAll ls).build.at? (addressOf ls p) = some (folderAt ls p) ∧
      ((Builder.empty.addAll ls).add l.1 l.2).build =
        (Builder.empty.addAll ls).build.modifyAt (Folder.attach l.1) (addressOf ls p) := by
  obtain ⟨hp, hf⟩ := mem_foldersOf.mp (mem_foldersOf_of_enclosingBefore? he)
  obtain ⟨hin, hnone⟩ := isIn_origin ls p
  obtain ⟨a, haddress, hat, hchange⟩ := folderAt_append_of_isIn hp he hf hin
  have hnodup : (rootsOf ls).Nodup := List.nodup_range.filter _
  have hroots := map_folderAt_append hnodup (fun i hi => (mem_rootsOf.mp hi).1)
    (fun i hi k hk => by
      rw [parent?_of_opensAt_zero (mem_rootsOf.mp hi).2, parent?_of_opensAt_zero (mem_rootsOf.mp hk).2])
    he hr hin hchange
  have hfolders := folders_add ls l
  rw [rootsOf_append, if_neg h, List.append_nil, hroots, ← folders_of_lines] at hfolders
  have hdropped := dropped_add ls l
  rw [if_neg (by simp [he]), List.append_nil] at hdropped
  rw [haddress, addressOf_of_parent?_eq_none hnone, List.singleton_append]
  refine ⟨?_, ?_⟩
  · rw [at?, folders_of_lines, List.getElem?_map, List.getElem?_idxOf hr, Option.map_some, Option.bind_some, hat]
  · exact eq_of_parts hfolders hdropped

/-- Where an origin is no root folder, it is a lost line. -/
theorem origin_mem_lostOf {p : Nat} (hp : p < ls.length) (h : origin ls p ∉ rootsOf ls) : origin ls p ∈ lostOf ls := by
  have hle := (isIn_origin ls p).1.le
  rw [mem_lostOf_origin_iff hp, isPlaced]
  by_contra hopens
  exact h (mem_rootsOf.mpr ⟨by omega, by simpa using hopens⟩)

/-- **A line changes one place of an outline at most.** A folder line of depth 0 puts an empty root folder behind the
    others. Any other line for which no folder one level up has been opened is reported, and the folders stay. If
    the latest such folder line has a root folder as its origin, the folder that it makes stands at its address and
    gets an empty subfolder behind the others, or a file behind the others; every other folder keeps its address,
    its name and its files. If its origin is a lost line, nothing changes at all. -/
theorem build_add (ls : List (Line × Int)) (l : Line × Int) :
    let before := (Builder.empty.addAll ls).build
    let after := ((Builder.empty.addAll ls).add l.1 l.2).build
    if l.1.kind = .folder ∧ l.1.depth = 0 then
      after = { before with folders := before.folders ++ [.mk l.1.name [] []] } ∧
        ∀ a, after.entryAt? a = if a = [before.folders.length] then some (l.1.name, []) else before.entryAt? a
    else
      match enclosingBefore? ls l.1.depth ls.length with
      | none =>
        after = { before with
          dropped := before.dropped ++ [(Drop.mk l.2 l.1.kind l.1.name l.1.depth).message] }
      | some p =>
        if origin ls p ∈ rootsOf ls then
          before.at? (addressOf ls p) = some (folderAt ls p) ∧
            after = before.modifyAt (Folder.attach l.1) (addressOf ls p) ∧
            ∀ a, after.entryAt? a =
              match l.1.kind with
              | .folder =>
                if a = addressOf ls p ++ [(folderAt ls p).folders.length] then some (l.1.name, [])
                else before.entryAt? a
              | .file =>
                if a = addressOf ls p then some (nameAt ls p, (folderAt ls p).files ++ [Builder.fileOf l.1])
                else before.entryAt? a
        else origin ls p ∈ lostOf ls ∧ after = before := by
  intro before after
  by_cases h : l.1.kind = .folder ∧ l.1.depth = 0
  · have hafter : after = _ := build_add_of_root h
    rw [if_pos h]
    exact ⟨hafter, fun a => hafter ▸ entryAt?_concat before l.1.name a⟩
  · rw [if_neg h]
    split
    · next hnone =>
      have hafter : after = _ := build_add_of_not_mem_rootsOf h fun p hp => by rw [hnone] at hp; cases hp
      rwa [if_pos hnone] at hafter
    · next p he =>
      split
      · next hr =>
        obtain ⟨hat, hafter⟩ := build_add_of_mem_rootsOf h he hr
        have hentry : ∀ a, after.entryAt? a = (before.modifyAt (Folder.attach l.1) (addressOf ls p)).entryAt? a :=
          fun a => congrArg (Outline.entryAt? · a) hafter
        have hname : (folderAt ls p).name = nameAt ls p := by rw [folderAt_eq]; rfl
        refine ⟨hat, hafter, fun a => (hentry a).trans ?_⟩
        cases hk : l.1.kind with
        | folder => exact entryAt?_modifyAt (Folder.entryAt?_attach_folder hk _) hat a
        | file =>
          have hfile := entryAt?_modifyAt (Folder.entryAt?_attach_file hk _) hat a
          rwa [List.append_nil, hname] at hfile
      · next hr =>
        have hp := (mem_foldersOf.mp (mem_foldersOf_of_enclosingBefore? he)).1
        have hafter : after = _ := build_add_of_not_mem_rootsOf h fun q hq => by
          obtain rfl : p = q := Option.some.inj (he.symm.trans hq)
          exact hr
        rw [if_neg (by simp [he]), List.append_nil] at hafter
        exact ⟨origin_mem_lostOf hp hr, hafter⟩

end Outline

end Stencil
