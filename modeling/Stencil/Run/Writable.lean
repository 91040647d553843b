import Stencil.Run.Job

/-!
# `Stencil.Run.Writable` — what can be written

The value of a parameter may be no text, because halves of surrogate pairs are among its code points.
No file can hold a half. In a path the halves from U+DC80 to U+DCFF stand for single bytes; the system
takes them, but no others.
-/

namespace Stencil

open Text

/-- Whether a code point keeps a path from being given to the system. -/
def isPathBreaker (n : Nat) : Bool := CodePoints.isHalf n && !(0xDC80 ≤ n && n ≤ 0xDCFF)

/-- The code points of the path that a name makes below a folder. -/
def pathPoints (folder : Path) (name : CodePoints) : CodePoints :=
  let slash := '/'.toNat
  let parts := (pieces slash name.points).filter fun p => p ≠ [] ∧ p ≠ ['.'.toNat]
  let whole (root : Root) (before : List String) : CodePoints :=
    let names := before.map (fun c => (CodePoints.ofString c).points) ++ parts
    ⟨root.text.map Char.toNat ++ [slash].intercalate names⟩
  match Path.rootOf (name.points.map CodePoints.standInFor) with
  | .here => whole folder.root folder.parts
  | root => whole root []

namespace Job

/-- Makes sure that the path of a name below a folder can be given to the system. -/
def requirePath (folder : Path) (name : CodePoints) : Job Unit :=
  match (pathPoints folder name).unwritable? isPathBreaker with
  | none => return ()
  | some u => throw (.unwritable u)

/-- Makes sure that a file can hold a content. If it cannot, it is left empty. -/
def requireContent (path : Path) (content : CodePoints) (fault : Refusal → Fault) : Job Unit :=
  match content.unwritable? CodePoints.isHalf with
  | none => return ()
  | some u => do
    writeText path "" fault
    throw (.unwritable u)

end Job

/-- The position counts all characters of the path. -/
example : (pathPoints (.ofString "p/t") ⟨[0x44, 0x2F, 0x2F, 0xD800]⟩).unwritable? isPathBreaker
    = some ⟨6, [0xD800]⟩ := by decide +kernel

end Stencil
