import Stencil.Outline.Builder
import Stencil.Proofs.Outline.Walk

/-!
# `Stencil.Proofs.Outline.Drafts` — from drafts to folders

## Contents
- **Steps.** What `Builder.add` does to each part of a builder; later proofs do not open it.
- **Finishing.** What `Builder.finish` makes of one draft, if its children come after it
  (`getElem?_finish`).
- **Layout.** `Folder.layout` is the run of drafts that a folder makes when it is read in order: its
  own draft, then the drafts of its subfolders one after the other. Finishing a layout gives the
  folders back (`finish_layoutAll`, `filterMap_heads`).
-/

namespace Stencil

/-- A draft with the folder or file of a line put at its end; the folder has the given number. -/
def Draft.attach (d : Draft) (line : Line) (number : Nat) : Draft :=
  match line.kind with
  | .folder => { d with children := d.children ++ [number] }
  | .file => { d with files := d.files ++ [Builder.fileOf line] }

namespace Builder

/-! ## Steps -/

variable (b : Builder) (line : Line) (number : Int)

@[simp] theorem enclosing?_zero : b.enclosing? 0 = none := rfl

/-- The drafts when a line has opened a folder, if it is a folder line. -/
def opened : List Draft := b.drafts ++ if line.kind = .folder then [{ name := line.name }] else []

/-- The drafts when what a line names has been put into the folder that encloses it, if there is one. -/
def attached : List Draft :=
  match b.enclosing? line.depth with
  | none => b.opened line
  | some parent => (b.opened line).modify parent fun d => d.attach line b.drafts.length

/-- **One step, part by part.** -/
theorem add_eq :
    b.add line number =
      { drafts := b.attached line
        roots := b.roots ++ if line.kind = .folder ∧ line.depth = 0 then [b.drafts.length] else []
        latest :=
          if line.kind = .folder then Entries.insert line.depth b.drafts.length b.latest else b.latest
        dropped :=
          b.dropped ++ if b.enclosing? line.depth = none ∧ ¬ (line.kind = .folder ∧ line.depth = 0)
            then [⟨number, line.kind, line.name, line.depth⟩] else [] } := by
  unfold add attached opened Draft.attach
  cases hk : line.kind with
  | folder =>
    by_cases h0 : line.depth = 0
    · simp [h0, openFolder]
    · cases he : b.enclosing? line.depth <;> simp [h0, openFolder, drop, addChild, hk]
  | file => cases he : b.enclosing? line.depth <;> simp [drop, addFile, hk]

/-! ## Finishing -/

/-- The folder of a draft: it has the files of the draft, and the folders of its children, if these are drafts
    with higher numbers. -/
theorem getElem?_finish {number k : Nat} {ds : List Draft} {d : Draft} (h : ds[k]? = some d)
    (hc : ∀ c ∈ d.children, number + k < c) :
    (finish number ds)[k]? =
      some (.mk d.name d.files (d.children.filterMap fun c => (finish number ds)[c - number]?)) := by
  induction ds generalizing number k with
  | nil => simp at h
  | cons e es ih =>
    -- a child behind the first draft is one place further on in the whole list
    have hshift : ∀ c, number < c →
        (finish number (e :: es))[c - number]? = (finish (number + 1) es)[c - (number + 1)]? := by
      intro c hlt
      rw [show c - number = c - (number + 1) + 1 by omega]
      rfl
    cases k with
    | zero =>
      obtain rfl : e = d := by simpa using h
      have hs : e.children.filterMap (fun c => (finish (number + 1) es)[c - (number + 1)]?) =
          e.children.filterMap fun c => (finish number (e :: es))[c - number]? :=
        List.filterMap_congr fun c hm => (hshift c (hc c hm)).symm
      rw [← hs]
      rfl
    | succ k =>
      have hk := @ih (number + 1) k (by simpa using h)
        fun c hm => by have := hc c hm; omega
      have hs : d.children.filterMap (fun c => (finish (number + 1) es)[c - (number + 1)]?) =
          d.children.filterMap fun c => (finish number (e :: es))[c - number]? :=
        List.filterMap_congr fun c hm => (hshift c (by have := hc c hm; omega)).symm
      rw [← hs, ← hk]
      rfl

end Builder

namespace Folder

/-! ## Layout -/

/-- The numbers of the drafts of folders that are laid out one after the other. -/
def heads (number : Nat) : List Folder → List Nat
  | [] => []
  | f :: fs => number :: heads (number + f.size) fs

mutual

/-- The drafts of a folder, the first of which has the given number. -/
def layout (number : Nat) : Folder → List Draft
  | .mk name files folders =>
    { name, files, children := heads (number + 1) folders } :: layoutAll (number + 1) folders

/-- The drafts of several folders, one folder after the other. -/
def layoutAll (number : Nat) : List Folder → List Draft
  | [] => []
  | f :: fs => layout number f ++ layoutAll (number + f.size) fs

end

mutual

@[simp] theorem length_layout (number : Nat) : (f : Folder) → (layout number f).length = f.size
  | .mk name files folders => by simp [layout, size, length_layoutAll]

@[simp] theorem length_layoutAll (number : Nat) : (fs : List Folder) →
    (layoutAll number fs).length = sizeAll fs
  | [] => by simp [layoutAll, sizeAll]
  | f :: fs => by simp [layoutAll, sizeAll, length_layout, length_layoutAll]

end

theorem le_of_mem_heads {number c : Nat} {fs : List Folder} (h : c ∈ heads number fs) : number ≤ c := by
  induction fs generalizing number with
  | nil => simp [heads] at h
  | cons f fs ih =>
    rcases List.mem_cons.mp h with rfl | h
    · exact Nat.le_refl c
    · have := ih h
      omega

/-- The drafts with the numbers of the heads are finished to the folders themselves. -/
theorem filterMap_heads (above : List String) (number : Nat) (fs rest : List Folder) :
    ((heads number fs).filterMap fun c =>
      ((walkAll above fs).map Prod.snd ++ rest)[c - number]?) = fs := by
  induction fs generalizing number with
  | nil => rfl
  | cons f fs ih =>
    -- behind the folders of `f`, positions count from the number that comes after them
    have hshift : ∀ c ∈ heads (number + f.size) fs,
        ((walkAll above (f :: fs)).map Prod.snd ++ rest)[c - number]? =
          ((walkAll above fs).map Prod.snd ++ rest)[c - (number + f.size)]? := by
      intro c hc
      have hle := le_of_mem_heads hc
      rw [walkAll_cons, List.map_append, List.append_assoc, List.getElem?_append_right (by simp; omega),
        List.length_map, length_walk, Nat.sub_sub]
    have hhead : ((walkAll above (f :: fs)).map Prod.snd ++ rest)[number - number]? = some f := by
      rw [walkAll_cons, walk_eq, Nat.sub_self]
      rfl
    rw [heads, List.filterMap_cons, hhead, List.filterMap_congr hshift, ih]

mutual

/-- A layout is finished to the folders in the order of a walk. -/
theorem finish_layout (above : List String) (number : Nat) (ds : List Draft) : (f : Folder) →
    Builder.finish number (layout number f ++ ds) =
      (walk above f).map Prod.snd ++ Builder.finish (number + f.size) ds
  | .mk name files folders => by
    have ih := finish_layoutAll (above ++ [name]) (number + 1) ds folders
    have hc := filterMap_heads (above ++ [name]) (number + 1) folders
      (Builder.finish (number + 1 + sizeAll folders) ds)
    simp only [layout, List.cons_append, Builder.finish, ih, hc, walk, size, List.map_cons]
    rw [show number + (sizeAll folders + 1) = number + 1 + sizeAll folders by omega]

theorem finish_layoutAll (above : List String) (number : Nat) (ds : List Draft) : (fs : List Folder) →
    Builder.finish number (layoutAll number fs ++ ds) =
      (walkAll above fs).map Prod.snd ++ Builder.finish (number + sizeAll fs) ds
  | [] => by simp [layoutAll, sizeAll]
  | f :: fs => by
    rw [layoutAll, List.append_assoc, finish_layout above, finish_layoutAll above, walkAll_cons, sizeAll,
      List.map_append, List.append_assoc, Nat.add_assoc]

end

end Folder

/-- A builder whose drafts are a layout builds the folders that were laid out. -/
theorem Builder.folders_build {b : Builder} {fs : List Folder} (hd : b.drafts = Folder.layoutAll 0 fs)
    (hr : b.roots = Folder.heads 0 fs) : b.build.folders = fs := by
  have hf := Folder.finish_layoutAll [] 0 [] fs
  rw [List.append_nil, Builder.finish] at hf
  show b.roots.filterMap (fun r => (finish 0 b.drafts)[r]?) = fs
  rw [hd, hr, hf]
  exact Folder.filterMap_heads [] 0 fs []

end Stencil
