import Stencil.Text.Pieces

/-!
# `Stencil.Path` — paths

## Contents
- **Paths.** A path starts at the working folder or at the root and has components. Empty components
  and `.` vanish when a text is read (`Path.ofString`), `..` stays. Exactly two slashes in front are
  a root of their own.
- **Operations.** `join` continues a path, or replaces it by an absolute one; `parent` drops the
  last component; `name` is the last component.
- **Text.** `Path.text` writes a path; the path without components and root is written `.`.
-/

namespace Stencil

/-- Where a path starts. -/
inductive Root where
  /-- At the working folder. -/
  | here
  /-- At the root. -/
  | slash
  /-- At the root, written with two slashes. -/
  | doubleSlash
  deriving Repr, DecidableEq

/-- The text of the start of a path. -/
def Root.text : Root → List Char
  | .here => []
  | .slash => ['/']
  | .doubleSlash => ['/', '/']

/-- Whether a text can be a component of a path. -/
def IsComponent (c : String) : Prop := c ≠ "" ∧ c ≠ "." ∧ '/' ∉ c.toList

instance (c : String) : Decidable (IsComponent c) := by
  unfold IsComponent
  exact inferInstance

/-- A path: a start and components. -/
@[ext] structure Path where
  /-- Where the path starts. -/
  root : Root
  /-- The components, from the start on. -/
  parts : List String
  /-- Each of them is a component. -/
  proper : ∀ c ∈ parts, IsComponent c
  deriving DecidableEq

namespace Path

/-- The path that stays where it starts. -/
def start (root : Root) : Path := ⟨root, [], by simp⟩

instance : Inhabited Path := ⟨start .here⟩

/-- How many slashes lead decides where a path starts. -/
def rootOf (cs : List Char) : Root :=
  match (cs.takeWhile (· == '/')).length with
  | 0 => .here
  | 2 => .doubleSlash
  | _ => .slash

/-- The components of a text. -/
def componentsOf (cs : List Char) : List String :=
  ((Text.pieces '/' cs).map String.ofList).filter fun c => IsComponent c

/-- The path that a text stands for. -/
def ofString (s : String) : Path :=
  ⟨rootOf s.toList, componentsOf s.toList, fun c h => by simpa using (List.mem_filter.1 h).2⟩

/-- Continues `p` with `q`; an absolute `q` starts afresh. -/
def join (p q : Path) : Path :=
  match q.root with
  | .here =>
    ⟨p.root, p.parts ++ q.parts, fun c h => (List.mem_append.1 h).elim (p.proper c) (q.proper c)⟩
  | _ => q

instance : HDiv Path Path Path := ⟨join⟩

instance : HDiv Path String Path := ⟨fun p s => p.join (ofString s)⟩

/-- The path without its last component. -/
def parent (p : Path) : Path :=
  ⟨p.root, p.parts.dropLast, fun c h => p.proper c (List.dropLast_subset _ h)⟩

/-- The last component, empty if there is none. -/
def name (p : Path) : String := p.parts.getLast?.getD ""

/-- The text of a path. -/
def text (p : Path) : String :=
  if p.root = .here ∧ p.parts = [] then "."
  else String.ofList p.root.text ++ "/".intercalate p.parts

instance : ToString Path := ⟨text⟩

instance : Repr Path := ⟨fun p _ => p.text⟩

/-! ## Laws -/

@[simp] theorem join_start_here (p : Path) : p / start .here = p := by
  show p.join (start .here) = p
  ext1 <;> simp [join, start]

@[simp] theorem start_here_join (q : Path) : start .here / q = q := by
  show (start .here).join q = q
  unfold join
  split
  · next h => ext1 <;> simp [start, h]
  · rfl

/-- Joining is associative. -/
theorem join_assoc (p q r : Path) : p / q / r = p / (q / r) := by
  show (p.join q).join r = p.join (q.join r)
  cases hr : r.root <;> cases hq : q.root <;> simp [join, hr, hq]

@[simp] theorem root_parent (p : Path) : p.parent.root = p.root := rfl

@[simp] theorem parts_parent (p : Path) : p.parent.parts = p.parts.dropLast := rfl

/-- Repeated slashes collapse, dots vanish, and climbing stays. -/
example : (ofString "a//./b/../").text = "a/b/.." := by decide +kernel

/-- Two slashes in front stay two, three are one. -/
example : (ofString "//x").text = "//x" ∧ (ofString "///x").text = "/x" ∧ (ofString "").text = "." := by
  decide +kernel

end Path

end Stencil
