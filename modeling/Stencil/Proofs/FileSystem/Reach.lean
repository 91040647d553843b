import Stencil.Proofs.FileSystem.Place

/-!
# `Stencil.Proofs.FileSystem.Reach` — what it takes to reach a place

## Contents
- **Open folders.** A path `Opens` a folder if its names lead to one. A plain name in a folder can be reached just if
  the folder is open and the name `Fits`, which does not depend on the disk (`locate_join_iff`).
- **Trails.** The trail of a path is what is passed on the way along it. Disks that agree on the trail of a path lead it
  to the same place, or refuse it for the same reason (`locate_eq_of_trail`).
- **Alike.** Disks that nothing tells apart, though their entries may be listed in different orders.
-/

namespace Stencil.FileSystem

variable {fs fs' : FileSystem} {path p : Path} {l here : Location} {c : String} {names : List String}

/-! ## Open folders -/

/-- Whether the names of a path lead to a folder. How long the path is does not matter. -/
structure Opens (fs : FileSystem) (p : Path) : Prop where
  leads : fs.follow (fs.startOf p) p.parts = .ok (fs.placeOf p)
  folder : fs.entryAt? (fs.placeOf p) = some .folder

/-- Whether a name in a folder is a name that the system takes, by a path that the system takes. -/
structure Fits (p : Path) (c : String) : Prop where
  usable : isUsable (p / c) = true
  path : (p / c).text.utf8ByteSize ≤ maxPathBytes
  name : c.utf8ByteSize ≤ maxNameBytes

/-- A plain name is looked up in a folder, and need not be there. -/
theorem step_eq_ok_iff (hc : c ≠ "..") :
    fs.step here c = .ok l ↔
      fs.entryAt? here = some .folder ∧ c.utf8ByteSize ≤ maxNameBytes ∧ l = here ++ [c] := by
  unfold step
  constructor
  · intro h
    split at h
    · cases h
    · cases h
    · next hfolder =>
      rw [if_neg hc] at h
      split at h
      · cases h
      · next hshort =>
        cases h
        exact ⟨hfolder, Nat.le_of_not_lt hshort, rfl⟩
  · rintro ⟨hfolder, hshort, rfl⟩
    rw [hfolder]
    dsimp only
    rw [if_neg hc, if_neg (Nat.not_lt.mpr hshort)]

/-- Names may be followed in two goes. -/
theorem follow_concat (fs : FileSystem) (here : Location) (names : List String) (c : String) :
    fs.follow here (names ++ [c]) =
      match fs.follow here names with
      | .error e => .error e
      | .ok next => fs.step next c := by
  induction names generalizing here with
  | nil =>
    show (match fs.step here c with
      | .error e => .error e
      | .ok next => .ok next) = fs.step here c
    cases fs.step here c <;> rfl
  | cons name names ih =>
    rw [List.cons_append, follow, follow]
    cases fs.step here name with
    | error e => rfl
    | ok next => exact ih next

theorem locate_eq_ok_iff :
    fs.locate path = .ok l ↔
      isUsable path = true ∧ path.text.utf8ByteSize ≤ maxPathBytes ∧
        fs.follow (fs.startOf path) path.parts = .ok l := by
  unfold locate resolve
  by_cases husable : isUsable path = true
  · rw [if_pos husable]
    by_cases hlong : maxPathBytes < path.text.utf8ByteSize
    · have hnot : ¬ path.text.utf8ByteSize ≤ maxPathBytes := Nat.not_le.mpr hlong
      simp [hlong, hnot]
    · have hshort : path.text.utf8ByteSize ≤ maxPathBytes := Nat.le_of_not_lt hlong
      cases hf : fs.follow (fs.startOf path) path.parts <;> simp [hlong, husable, hshort]
  · simp [husable]

/-- **A plain name in a folder can be reached** just if it fits and the folder is open. -/
theorem locate_join_iff (hc : IsPlainComponent c) :
    fs.locate (p / c) = .ok (fs.placeOf (p / c)) ↔ Fits p c ∧ fs.Opens p := by
  have hstart : fs.startOf (p / c) = fs.startOf p := by
    unfold startOf
    rw [Path.root_join_component hc.1]
  rw [locate_eq_ok_iff, hstart, Path.parts_join_component hc.1, follow_concat]
  constructor
  · rintro ⟨husable, hshort, hlast⟩
    cases hf : fs.follow (fs.startOf p) p.parts with
    | error e =>
      rw [hf] at hlast
      cases hlast
    | ok next =>
      have hnext : next = fs.placeOf p := follow_eq_ok hf
      rw [hf] at hlast
      obtain ⟨hfolder, hname, -⟩ := (step_eq_ok_iff hc.2).mp hlast
      exact ⟨⟨husable, hshort, hname⟩, hnext ▸ hf, hnext ▸ hfolder⟩
  · rintro ⟨hfits, hopens⟩
    refine ⟨hfits.usable, hfits.path, ?_⟩
    rw [hopens.leads]
    exact (step_eq_ok_iff hc.2).mpr ⟨hopens.folder, hfits.name, placeOf_join_plain hc p⟩

/-- A folder that can be reached is open. -/
theorem opens_of_locate (h : fs.locate p = .ok (fs.placeOf p)) (hfolder : fs.entryAt? (fs.placeOf p) = some .folder) :
    fs.Opens p := by
  obtain ⟨-, -, hleads⟩ := locate_eq_ok_iff.mp h
  exact ⟨hleads, hfolder⟩

/-- What is open stays open. -/
theorem Grows.opens (h : Grows fs fs') (hp : fs.Opens p) : fs'.Opens p := by
  have hstart : fs'.startOf p = fs.startOf p := by
    unfold startOf
    rw [h.workingFolder]
  refine ⟨?_, ?_⟩
  · rw [hstart, h.placeOf]
    exact h.follow hp.leads
  · rw [h.placeOf]
    exact h.folder _ hp.folder

/-! ## Trails -/

/-- The locations that are passed when names are followed, the last one included. -/
def trailFrom (fs : FileSystem) (here : Location) : List String → List Location
  | [] => [here]
  | name :: names =>
    match fs.step here name with
    | .error _ => [here]
    | .ok next => here :: fs.trailFrom next names

/-- The locations that are passed on the way along a path, the last one included; none if the system does not take the
    path. -/
def trail (fs : FileSystem) (path : Path) : List Location :=
  if isUsable path ∧ path.text.utf8ByteSize ≤ maxPathBytes then fs.trailFrom (fs.startOf path) path.parts else []

theorem mem_trailFrom_self (fs : FileSystem) (here : Location) (names : List String) :
    here ∈ fs.trailFrom here names := by
  cases names with
  | nil => exact List.mem_singleton.mpr rfl
  | cons name names =>
    unfold trailFrom
    split
    · exact List.mem_singleton.mpr rfl
    · exact List.mem_cons_self

/-- A name leads on in the same way where the same is found. -/
theorem step_congr (h : fs'.entryAt? here = fs.entryAt? here) (c : String) : fs'.step here c = fs.step here c := by
  unfold step
  rw [h]

/-- Names lead to the same place on disks that agree on what is passed. -/
theorem follow_congr (h : ∀ m ∈ fs.trailFrom here names, fs'.entryAt? m = fs.entryAt? m) :
    fs'.follow here names = fs.follow here names := by
  induction names generalizing here with
  | nil => rfl
  | cons name names ih =>
    have hstep := step_congr (h here (mem_trailFrom_self fs here (name :: names))) name
    rw [follow, follow, hstep]
    cases hnext : fs.step here name with
    | error e => rfl
    | ok next =>
      refine ih fun m hm => h m ?_
      rw [trailFrom, hnext]
      exact List.mem_cons_of_mem here hm

/-- Where names lead is the end of what is passed. -/
theorem mem_trailFrom_of_follow (h : fs.follow here names = .ok l) : l ∈ fs.trailFrom here names := by
  induction names generalizing here with
  | nil =>
    cases h
    exact List.mem_singleton.mpr rfl
  | cons name names ih =>
    unfold follow at h
    split at h
    · cases h
    · next next hnext =>
      rw [trailFrom, hnext]
      exact List.mem_cons_of_mem here (ih h)

/-- Where a path leads is the end of its trail. -/
theorem mem_trail_of_locate (h : fs.locate path = .ok l) : l ∈ fs.trail path := by
  obtain ⟨husable, hshort, hleads⟩ := locate_eq_ok_iff.mp h
  rw [trail, if_pos ⟨husable, hshort⟩]
  exact mem_trailFrom_of_follow hleads

/-- **A path leads to the same place on disks that agree on its trail.** -/
theorem locate_eq_of_trail (hstart : fs'.workingFolder = fs.workingFolder)
    (h : ∀ m ∈ fs.trail path, fs'.entryAt? m = fs.entryAt? m) : fs'.locate path = fs.locate path := by
  have hfrom : fs'.startOf path = fs.startOf path := by
    unfold startOf
    rw [hstart]
  unfold locate
  by_cases husable : isUsable path = true
  · rw [if_pos husable, if_pos husable]
    unfold resolve
    by_cases hlong : maxPathBytes < path.text.utf8ByteSize
    · rw [if_pos hlong, if_pos hlong]
    · have hfollow : fs'.follow (fs.startOf path) path.parts = fs.follow (fs.startOf path) path.parts := by
        apply follow_congr
        intro m hm
        apply h
        rw [trail, if_pos ⟨husable, Nat.le_of_not_lt hlong⟩]
        exact hm
      rw [if_neg hlong, if_neg hlong, hfrom, hfollow]
  · rw [if_neg husable, if_neg husable]

/-! ## Alike -/

/-- Disks that nothing tells apart: the same is at each location, and relative paths start in the same folder. -/
structure Alike (fs fs' : FileSystem) : Prop where
  workingFolder : fs'.workingFolder = fs.workingFolder
  entryAt? : ∀ l, fs'.entryAt? l = fs.entryAt? l

end Stencil.FileSystem
