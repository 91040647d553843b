import Mathlib.Data.List.Basic
import Stencil.Outline.Tree

/-!
# `Stencil.Proofs.Outline.Walk` — the folders of an outline

## Contents
- **Sizes.** How many folders there are; a walk meets each of them once, and with them each file.
- **Names.** The names that a walk gives with a folder are those of folders on the walk, its own last.
- **Climbs.** `Folder.climb` meets the folders of a walk in another order, each behind its subfolders.
-/

namespace Stencil.Folder

/-! ## Sizes -/

mutual

/-- How many folders there are in a folder, itself included. -/
def size : Folder → Nat
  | .mk _ _ folders => sizeAll folders + 1

/-- How many folders there are in several folders, themselves included. -/
def sizeAll : List Folder → Nat
  | [] => 0
  | f :: fs => size f + sizeAll fs

end

mutual

/-- A walk meets every folder once. -/
@[simp] theorem length_walk (above : List String) : (f : Folder) → (walk above f).length = f.size
  | .mk name files folders => by simp [walk, size, length_walkAll]

@[simp] theorem length_walkAll (above : List String) : (fs : List Folder) →
    (walkAll above fs).length = sizeAll fs
  | [] => by simp [sizeAll]
  | f :: fs => by simp [sizeAll, length_walk, length_walkAll]

end

theorem walk_eq (above : List String) (f : Folder) :
    walk above f = (above ++ [f.name], f) :: walkAll (above ++ [f.name]) f.folders := by
  cases f with
  | mk name files folders => rw [walk]; rfl

theorem walkAll_eq_flatMap (above : List String) (fs : List Folder) : walkAll above fs = fs.flatMap (walk above) := by
  induction fs with
  | nil => simp
  | cons f fs ih => rw [walkAll_cons, List.flatMap_cons, ih]

/-! ## Names -/

mutual

/-- The names on the way to a folder end with its own name. -/
theorem names_of_mem_walk {above : List String} {p : List String × Folder} : (f : Folder) →
    p ∈ walk above f → p.1 = p.1.dropLast ++ [p.2.name]
  | .mk name files folders, h => by
    rw [walk] at h
    rcases List.mem_cons.mp h with rfl | h
    · simp [Folder.name]
    · exact names_of_mem_walkAll folders h

theorem names_of_mem_walkAll {above : List String} {p : List String × Folder} : (fs : List Folder) →
    p ∈ walkAll above fs → p.1 = p.1.dropLast ++ [p.2.name]
  | [], h => by simp at h
  | f :: fs, h => by
    rw [walkAll_cons] at h
    rcases List.mem_append.mp h with h | h
    · exact names_of_mem_walk f h
    · exact names_of_mem_walkAll fs h

end

mutual

/-- The names on the way to a folder are those above and those of folders on the walk. -/
theorem mem_names_of_mem_walk {above : List String} {p : List String × Folder} {name : String} : (f : Folder) →
    p ∈ walk above f → name ∈ p.1 → name ∈ above ∨ ∃ q ∈ walk above f, q.2.name = name
  | .mk own files folders, hp, hname => by
    have hself : name ∈ above ++ [own] →
        name ∈ above ∨ ∃ q ∈ walk above (.mk own files folders), q.2.name = name := by
      intro h
      rcases List.mem_append.mp h with h | h
      · exact .inl h
      · refine .inr ⟨(above ++ [own], .mk own files folders), ?_, (List.mem_singleton.mp h).symm⟩
        rw [walk]
        exact List.mem_cons_self
    rw [walk] at hp hself ⊢
    rcases List.mem_cons.mp hp with rfl | hp
    · exact hself hname
    · rcases mem_names_of_mem_walkAll folders hp hname with hname | ⟨q, hq, hqname⟩
      · exact hself hname
      · exact .inr ⟨q, List.mem_cons_of_mem _ hq, hqname⟩

theorem mem_names_of_mem_walkAll {above : List String} {p : List String × Folder} {name : String} :
    (fs : List Folder) → p ∈ walkAll above fs → name ∈ p.1 →
    name ∈ above ∨ ∃ q ∈ walkAll above fs, q.2.name = name
  | [], hp, _ => by simp at hp
  | f :: fs, hp, hname => by
    rw [walkAll_cons] at hp ⊢
    rcases List.mem_append.mp hp with hp | hp
    · rcases mem_names_of_mem_walk f hp hname with h | ⟨q, hq, hqname⟩
      · exact .inl h
      · exact .inr ⟨q, List.mem_append_left _ hq, hqname⟩
    · rcases mem_names_of_mem_walkAll fs hp hname with h | ⟨q, hq, hqname⟩
      · exact .inl h
      · exact .inr ⟨q, List.mem_append_right _ hq, hqname⟩

end

mutual

/-- What a walk meets is where it starts, or has a folder on the walk around it. -/
theorem around_of_mem_walk {above : List String} {p : List String × Folder} : (f : Folder) → p ∈ walk above f →
    p = (above ++ [f.name], f) ∨ ∃ q ∈ walk above f, p.1.dropLast = q.1
  | .mk name files folders, hp => by
    rw [walk] at hp ⊢
    rcases List.mem_cons.mp hp with rfl | hp
    · exact .inl rfl
    · right
      rcases around_of_mem_walkAll folders hp with ⟨f, -, rfl⟩ | ⟨q, hq, hnames⟩
      · exact ⟨(above ++ [name], .mk name files folders), List.mem_cons_self, List.dropLast_concat⟩
      · exact ⟨q, List.mem_cons_of_mem _ hq, hnames⟩

theorem around_of_mem_walkAll {above : List String} {p : List String × Folder} : (fs : List Folder) →
    p ∈ walkAll above fs → (∃ f ∈ fs, p = (above ++ [f.name], f)) ∨ ∃ q ∈ walkAll above fs, p.1.dropLast = q.1
  | [], hp => by simp at hp
  | f :: fs, hp => by
    rw [walkAll_cons] at hp ⊢
    rcases List.mem_append.mp hp with hp | hp
    · rcases around_of_mem_walk f hp with hself | ⟨q, hq, hnames⟩
      · exact .inl ⟨f, List.mem_cons_self, hself⟩
      · exact .inr ⟨q, List.mem_append_left _ hq, hnames⟩
    · rcases around_of_mem_walkAll fs hp with ⟨g, hg, hself⟩ | ⟨q, hq, hnames⟩
      · exact .inl ⟨g, List.mem_cons_of_mem f hg, hself⟩
      · exact .inr ⟨q, List.mem_append_right _ hq, hnames⟩

end

/-- A walk meets the folders from which it starts. -/
theorem mem_walkAll_of_mem {above : List String} {f : Folder} {fs : List Folder} (h : f ∈ fs) :
    (above ++ [f.name], f) ∈ walkAll above fs := by
  rw [walkAll_eq_flatMap, List.mem_flatMap]
  refine ⟨f, h, ?_⟩
  rw [walk_eq]
  exact List.mem_cons_self

/-! ## Climbs -/

mutual

/-- The folder and all folders below it, these first, each with the names that lead to it. -/
def climb (above : List String) : Folder → List (List String × Folder)
  | .mk name files folders =>
    climbAll (above ++ [name]) folders ++ [(above ++ [name], .mk name files folders)]

/-- The climbs of several folders, one after the other. -/
def climbAll (above : List String) : List Folder → List (List String × Folder)
  | [] => []
  | f :: fs => climb above f ++ climbAll above fs

end

mutual

/-- **A climb meets the same folders as a walk.** -/
theorem climb_perm_walk (above : List String) : (f : Folder) → (climb above f).Perm (walk above f)
  | .mk name files folders => by
    have hin := climbAll_perm_walkAll (above ++ [name]) folders
    rw [climb, walk]
    exact List.perm_append_comm.trans (hin.cons _)

theorem climbAll_perm_walkAll (above : List String) : (fs : List Folder) →
    (climbAll above fs).Perm (walkAll above fs)
  | [] => by rw [climbAll, walkAll]
  | f :: fs => by
    rw [climbAll, walkAll]
    exact (climb_perm_walk above f).append (climbAll_perm_walkAll above fs)

end

end Stencil.Folder

namespace Stencil.Outline

/-- A list with an entry for each file of each folder of an outline has as many as there are files. -/
theorem length_flatMap_walk {α : Type} (o : Outline) {entries : List String × Folder → List α}
    (h : ∀ p, (entries p).length = p.2.files.length) : (o.walk.flatMap entries).length = o.fileCount := by
  rw [List.length_flatMap, fileCount, List.sum_eq_foldr, List.map_congr_left fun p _ => h p]

end Stencil.Outline
