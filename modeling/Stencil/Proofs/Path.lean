import Mathlib.Data.List.Basic
import Stencil.Path

/-!
# `Stencil.Proofs.Path` — paths, names and texts

## Contents
- **Components.** A component makes a path of itself, so joining with it puts it behind the others.
- **Names one after the other.** `Path.below` joins a path with names one by one.
- **Texts.** A path is read back from its text (`ofString_text`).
- **Parents.** A path that is not its own parent ends in a name, and is no shorter than its parent.
-/

namespace Stencil

/-- A name that leads one level down: a component that does not climb. -/
def IsPlainComponent (c : String) : Prop := IsComponent c ∧ c ≠ ".."

instance : DecidablePred IsPlainComponent := fun _ => inferInstanceAs (Decidable (_ ∧ _))

namespace Path

open Text

/-! ## Components -/

section Components

variable {c : String} (h : IsComponent c)

include h

theorem exists_cons_of_isComponent : ∃ a as, c.toList = a :: as ∧ a ≠ '/' := by
  cases hc : c.toList with
  | nil => exact absurd (String.toList_inj.mp hc) h.1
  | cons a as =>
    refine ⟨a, as, rfl, ?_⟩
    rintro rfl
    exact h.2.2 (by simp [hc])

/-- A text that starts with a component starts at the working folder. -/
theorem rootOf_component_append (cs : List Char) : rootOf (c.toList ++ cs) = .here := by
  obtain ⟨a, as, hc, ha⟩ := exists_cons_of_isComponent h
  rw [hc, List.cons_append, rootOf, List.takeWhile_cons_of_neg (by simpa using ha)]
  rfl

theorem componentsOf_component : componentsOf c.toList = [c] := by
  rw [componentsOf, pieces_eq_singleton h.2.2, List.map_singleton, String.ofList_toList,
    List.filter_cons_of_pos (by simpa using h)]
  rfl

/-- A component in front of a slash comes first of the components of a text. -/
theorem componentsOf_component_slash (cs : List Char) :
    componentsOf (c.toList ++ '/' :: cs) = c :: componentsOf cs := by
  rw [componentsOf, pieces_append_cons h.2.2, List.map_cons, String.ofList_toList,
    List.filter_cons_of_pos (by simpa using h)]
  rfl

theorem root_ofString_component : (ofString c).root = .here := by
  show rootOf c.toList = .here
  simpa using rootOf_component_append h []

theorem root_join_component (p : Path) : (p / c).root = p.root := by
  show (p.join (ofString c)).root = p.root
  rw [join, root_ofString_component h]

theorem parts_join_component (p : Path) : (p / c).parts = p.parts ++ [c] := by
  show (p.join (ofString c)).parts = p.parts ++ [c]
  rw [join, root_ofString_component h]
  show p.parts ++ componentsOf c.toList = p.parts ++ [c]
  rw [componentsOf_component h]

/-- A name that is put behind a path is what the parent drops. -/
theorem parent_join_component (p : Path) : (p / c).parent = p := by
  ext1
  · rw [root_parent, root_join_component h]
  · rw [parts_parent, parts_join_component h, List.dropLast_concat]

end Components

/-- A name without a slash is a component, unless it stays where it is. -/
theorem isComponent_or_join_eq {c : String} (h : '/' ∉ c.toList) (p : Path) : IsComponent c ∨ p / c = p := by
  by_cases hc : IsComponent c
  · exact .inl hc
  · right
    have hstay : ofString c = start .here := by
      have hdot : c = "" ∨ c = "." := by
        by_contra hnot
        exact hc ⟨fun he => hnot (.inl he), fun he => hnot (.inr he), h⟩
      rcases hdot with rfl | rfl <;> decide
    show p / ofString c = p
    rw [hstay, join_start_here]

/-! ## Names one after the other -/

/-- The path continued by names, one after the other. -/
def below (p : Path) (names : List String) : Path := names.foldl (fun (q : Path) (name : String) => q / name) p

@[simp] theorem below_nil (p : Path) : p.below [] = p := rfl

@[simp] theorem below_cons (p : Path) (name : String) (names : List String) :
    p.below (name :: names) = (p / name).below names := rfl

theorem below_append (p : Path) (ms ns : List String) : p.below (ms ++ ns) = (p.below ms).below ns :=
  List.foldl_append

theorem below_concat (p : Path) (names : List String) (name : String) :
    p.below (names ++ [name]) = p.below names / name := below_append p names [name]

/-- Joining may start anywhere. -/
theorem join_below (p q : Path) (names : List String) : p / q.below names = (p / q).below names := by
  induction names generalizing q with
  | nil => rfl
  | cons name names ih =>
    rw [below_cons, below_cons, ih]
    show (p / (q / ofString name)).below names = (p / q / ofString name).below names
    rw [join_assoc]

section Below

variable {names : List String} (h : ∀ c ∈ names, IsComponent c)

include h

theorem root_below (p : Path) : (p.below names).root = p.root := by
  induction names generalizing p with
  | nil => rfl
  | cons c names ih =>
    have hin : ∀ d ∈ names, IsComponent d := fun d hd => h d (List.mem_cons_of_mem c hd)
    rw [below_cons, ih hin, root_join_component (h c List.mem_cons_self)]

theorem parts_below (p : Path) : (p.below names).parts = p.parts ++ names := by
  induction names generalizing p with
  | nil => simp
  | cons c names ih =>
    have hin : ∀ d ∈ names, IsComponent d := fun d hd => h d (List.mem_cons_of_mem c hd)
    rw [below_cons, ih hin, parts_join_component (h c List.mem_cons_self)]
    simp

end Below

/-! ## Texts -/

/-- Components are read back from what stands between the slashes. -/
theorem componentsOf_intercalate {parts : List String} (h : ∀ c ∈ parts, IsComponent c) :
    componentsOf ("/".intercalate parts).toList = parts := by
  induction parts with
  | nil => rfl
  | cons c parts ih =>
    have hc := h c List.mem_cons_self
    have hin := ih fun d hd => h d (List.mem_cons_of_mem c hd)
    cases parts with
    | nil => rw [String.intercalate_singleton, componentsOf_component hc]
    | cons d parts =>
      rw [String.intercalate_cons_cons, String.toList_append, String.toList_append, List.append_assoc]
      show componentsOf (c.toList ++ '/' :: ("/".intercalate (d :: parts)).toList) = _
      rw [componentsOf_component_slash hc, hin]

/-- What stands between the slashes does not start with one. -/
theorem intercalate_eq_nil_or_cons {parts : List String} (h : ∀ c ∈ parts, IsComponent c) :
    ("/".intercalate parts).toList = [] ∨ ∃ a as, ("/".intercalate parts).toList = a :: as ∧ a ≠ '/' := by
  cases parts with
  | nil => exact .inl rfl
  | cons c parts =>
    obtain ⟨a, as, hc, ha⟩ := exists_cons_of_isComponent (h c List.mem_cons_self)
    right
    cases parts with
    | nil => exact ⟨a, as, by rw [String.intercalate_singleton, hc], ha⟩
    | cons d parts =>
      refine ⟨a, as ++ '/' :: ("/".intercalate (d :: parts)).toList, ?_, ha⟩
      rw [String.intercalate_cons_cons, String.toList_append, String.toList_append, hc, List.append_assoc]
      rfl

/-- An empty piece is no component. -/
theorem componentsOf_slash (cs : List Char) : componentsOf ('/' :: cs) = componentsOf cs := by
  rw [componentsOf, pieces, if_pos rfl, List.map_cons, List.filter_cons_of_neg (by decide)]
  rfl

/-- **A path is read back from its text.** -/
theorem ofString_text (p : Path) : ofString p.text = p := by
  have hparts := componentsOf_intercalate p.proper
  have hstart := intercalate_eq_nil_or_cons p.proper
  unfold text
  split
  · next hdot =>
    obtain ⟨hroot, hnil⟩ := hdot
    ext1
    · rw [hroot]; rfl
    · rw [hnil]; decide
  · next hdot =>
    -- the slashes in front are as many as the root has
    have htake : ("/".intercalate p.parts).toList.takeWhile (· == '/') = [] := by
      rcases hstart with hs | ⟨a, as, hs, ha⟩
      · rw [hs]; rfl
      · rw [hs, List.takeWhile_cons_of_neg (by simpa using ha)]
    ext1
    · show rootOf (String.ofList p.root.text ++ "/".intercalate p.parts).toList = p.root
      rw [String.toList_append, String.toList_ofList, rootOf]
      cases p.root <;> simp [Root.text, htake, -String.toList_intercalate]
    · show componentsOf (String.ofList p.root.text ++ "/".intercalate p.parts).toList = p.parts
      rw [String.toList_append, String.toList_ofList]
      cases p.root with
      | here => exact hparts
      | slash => exact (componentsOf_slash _).trans hparts
      | doubleSlash => exact ((componentsOf_slash _).trans (componentsOf_slash _)).trans hparts

theorem text_inj {p q : Path} : p.text = q.text ↔ p = q := by
  refine ⟨fun h => ?_, congrArg text⟩
  rw [← ofString_text p, h, ofString_text]

/-! ## Parents -/

/-- A path with names ends in the last of them. -/
theorem exists_parts_eq_concat {p : Path} (h : p.parts ≠ []) : ∃ c, p.parts = p.parent.parts ++ [c] :=
  ⟨p.parts.getLast h, (List.dropLast_concat_getLast h).symm⟩

theorem parent_eq_self_iff {p : Path} : p.parent = p ↔ p.parts = [] := by
  constructor
  · intro h
    by_contra hne
    obtain ⟨c, hc⟩ := exists_parts_eq_concat hne
    rw [h] at hc
    simpa using congrArg List.length hc
  · intro h
    ext1
    · rfl
    · rw [parts_parent, h]
      rfl

theorem size_intercalate_le (qs : List String) (c : String) :
    ("/".intercalate qs).utf8ByteSize ≤ ("/".intercalate (qs ++ [c])).utf8ByteSize := by
  induction qs with
  | nil => exact Nat.zero_le _
  | cons q qs ih =>
    cases qs with
    | nil =>
      rw [List.singleton_append, String.intercalate_cons_cons, String.intercalate_singleton,
        String.utf8ByteSize_append, String.utf8ByteSize_append]
      omega
    | cons r qs =>
      rw [List.cons_append, List.cons_append, String.intercalate_cons_cons, String.intercalate_cons_cons]
      simp only [String.utf8ByteSize_append]
      exact Nat.add_le_add_left ih _

/-- The path of the folder around is no longer than the path. -/
theorem size_text_parent_le (p : Path) : p.parent.text.utf8ByteSize ≤ p.text.utf8ByteSize := by
  by_cases hnames : p.parts = []
  · exact Nat.le_of_eq (by rw [parent_eq_self_iff.mpr hnames])
  · obtain ⟨c, hc⟩ := exists_parts_eq_concat hnames
    have hle := size_intercalate_le p.parent.parts c
    rw [← hc] at hle
    have htext : p.text = String.ofList p.root.text ++ "/".intercalate p.parts := if_neg fun h => hnames h.2
    rw [htext, text]
    split
    · -- what is written for no names at all is one character, and a name has one at least
      next hdot =>
      rw [hdot.2, List.nil_append] at hc
      have hne : c ≠ "" := (p.proper c (hc ▸ List.mem_singleton_self c)).1
      have hpos : 0 < c.utf8ByteSize := Nat.pos_of_ne_zero fun h => hne (String.utf8ByteSize_eq_zero_iff.mp h)
      rw [hc, String.intercalate_singleton, String.utf8ByteSize_append]
      exact Nat.le_trans hpos (Nat.le_add_left _ _)
    · rw [root_parent, String.utf8ByteSize_append, String.utf8ByteSize_append]
      exact Nat.add_le_add_left hle _

end Path

end Stencil
