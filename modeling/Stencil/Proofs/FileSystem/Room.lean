import Stencil.Proofs.FileSystem.Reach

/-!
# `Stencil.Proofs.FileSystem.Room` — where there is room for a file

A path passes a place for each of its names. The folders there may be missing as long as nothing else is in
their place: they can be made.

## Contents
- **Passing.** `passed` lists the places that a path passes on the way to its own; the names of a path lead to its
  place just if there is a folder at all of them (`follow_eq_ok_iff`).
- **Acceptable paths.** The conditions of the system on a path, which do not depend on the disk.
- **Room.** `HasRoom`: nothing but folders is in the way, and no folder is at the place itself.
- **Added folders.** A disk that has some folders more than another one.
-/

namespace Stencil

namespace FileSystem

variable {fs fs' : FileSystem} {path : Path} {here l m : Location} {names : List String} {c : String}

/-! ## Passing -/

/-- The places that are passed when names are followed, the last one not included. -/
def passedFrom (here : Location) : List String → List Location
  | [] => []
  | name :: names => here :: passedFrom (Location.advance here name) names

/-- The places that a path passes, its own not included. -/
def passed (fs : FileSystem) (path : Path) : List Location := passedFrom (fs.startOf path) path.parts

theorem passedFrom_concat (here : Location) (names : List String) (c : String) :
    passedFrom here (names ++ [c]) = passedFrom here names ++ [names.foldl Location.advance here] := by
  induction names generalizing here with
  | nil => rfl
  | cons name names ih =>
    rw [List.cons_append, passedFrom, passedFrom, ih, List.cons_append]
    rfl

/-- The last place on the way is that of the folder around. -/
theorem passed_eq_concat (fs : FileSystem) (h : path.parts ≠ []) :
    fs.passed path = fs.passed path.parent ++ [fs.placeOf path.parent] := by
  obtain ⟨c, hc⟩ := Path.exists_parts_eq_concat h
  rw [passed, hc]
  exact passedFrom_concat (fs.startOf path) path.parent.parts c

theorem passed_eq_of_workingFolder (h : fs'.workingFolder = fs.workingFolder) (path : Path) :
    fs'.passed path = fs.passed path := by
  unfold passed startOf
  rw [h]

/-- A name leads on just from a folder. -/
theorem step_eq_ok_iff_advance :
    fs.step here c = .ok l ↔
      fs.entryAt? here = some .folder ∧ c.utf8ByteSize ≤ maxNameBytes ∧ l = Location.advance here c := by
  by_cases hc : c = ".."
  · subst hc
    have hshort : "..".utf8ByteSize ≤ maxNameBytes := by decide
    unfold step
    constructor
    · intro h
      split at h
      · cases h
      · cases h
      · next hfolder =>
        rw [if_pos rfl] at h
        cases h
        exact ⟨hfolder, hshort, rfl⟩
    · rintro ⟨hfolder, -, rfl⟩
      rw [hfolder]
      rfl
  · rw [step_eq_ok_iff hc, Location.advance, if_neg hc]

/-- **Names lead to their place** just if there is a folder wherever they pass. -/
theorem follow_eq_ok_iff :
    fs.follow here names = .ok l ↔
      (∀ m ∈ passedFrom here names, fs.entryAt? m = some .folder) ∧
        (∀ c ∈ names, c.utf8ByteSize ≤ maxNameBytes) ∧ l = names.foldl Location.advance here := by
  induction names generalizing here with
  | nil => simp [follow, passedFrom, eq_comm]
  | cons c names ih =>
    rw [follow, passedFrom, List.forall_mem_cons, List.forall_mem_cons, List.foldl_cons]
    cases hstep : fs.step here c with
    | error e =>
      constructor
      · intro h
        cases h
      · rintro ⟨⟨hfolder, -⟩, ⟨hshort, -⟩, -⟩
        rw [step_eq_ok_iff_advance.mpr ⟨hfolder, hshort, rfl⟩] at hstep
        cases hstep
    | ok next =>
      obtain ⟨hfolder, hshort, rfl⟩ := step_eq_ok_iff_advance.mp hstep
      dsimp only
      rw [ih]
      tauto

/-- Where no file is passed, names lead to their place or to nothing. -/
theorem follow_eq_ok_or_notFound (hway : ∀ m ∈ passedFrom here names, ∀ bytes, fs.entryAt? m ≠ some (.file bytes))
    (hshort : ∀ c ∈ names, c.utf8ByteSize ≤ maxNameBytes) :
    fs.follow here names = .ok (names.foldl Location.advance here) ∨ fs.follow here names = .error .notFound := by
  induction names generalizing here with
  | nil => exact .inl rfl
  | cons c names ih =>
    rw [passedFrom, List.forall_mem_cons] at hway
    rw [List.forall_mem_cons] at hshort
    cases hentry : fs.entryAt? here with
    | none =>
      right
      rw [follow, step, hentry]
    | some e =>
      cases e with
      | file bytes => exact absurd hentry (hway.1 bytes)
      | folder =>
        rw [follow, step_eq_ok_iff_advance.mpr ⟨hentry, hshort.1, rfl⟩]
        exact ih hway.2 hshort.2

/-! ## Acceptable paths -/

/-- A path that the system takes: it has no character that ends a path, and neither it nor a name of it is too
    long. -/
structure IsAcceptable (path : Path) : Prop where
  usable : isUsable path = true
  length : path.text.utf8ByteSize ≤ maxPathBytes
  names : ∀ c ∈ path.parts, c.utf8ByteSize ≤ maxNameBytes

theorem IsAcceptable.parent (h : IsAcceptable path) : IsAcceptable path.parent := by
  refine ⟨?_, Nat.le_trans (Path.size_text_parent_le path) h.length, fun c hc => h.names c ?_⟩
  · have husable := h.usable
    unfold isUsable at husable ⊢
    simp only [Bool.not_eq_true', List.any_eq_false] at husable ⊢
    exact fun c hc => husable c (List.dropLast_subset _ hc)
  · exact List.dropLast_subset _ hc

/-- **A path that the system takes leads to its place** just if there is a folder at every place that it passes. -/
theorem locate_eq_ok_placeOf_iff :
    fs.locate path = .ok (fs.placeOf path) ↔
      IsAcceptable path ∧ ∀ m ∈ fs.passed path, fs.entryAt? m = some .folder := by
  rw [locate_eq_ok_iff, follow_eq_ok_iff]
  constructor
  · rintro ⟨husable, hlength, hway, hnames, -⟩
    exact ⟨⟨husable, hlength, hnames⟩, hway⟩
  · rintro ⟨hok, hway⟩
    exact ⟨hok.usable, hok.length, hway, hok.names, rfl⟩

/-- Where there are no names nothing is passed. -/
theorem locate_of_no_names (hok : IsAcceptable path) (hnil : path.parts = []) :
    fs.locate path = .ok (fs.placeOf path) := by
  rw [locate_eq_ok_placeOf_iff, passed, hnil]
  exact ⟨hok, List.forall_mem_nil _⟩

theorem locate_eq_ok_or_notFound (hok : IsAcceptable path)
    (hway : ∀ m ∈ fs.passed path, ∀ bytes, fs.entryAt? m ≠ some (.file bytes)) :
    fs.locate path = .ok (fs.placeOf path) ∨ fs.locate path = .error (.cause .notFound) := by
  unfold locate resolve
  rw [if_pos hok.usable, if_neg (Nat.not_lt.mpr hok.length)]
  rcases follow_eq_ok_or_notFound hway hok.names with h | h
  · left
    rw [h]
    rfl
  · right
    rw [h]

/-- From a folder that is found, a name leads on. -/
theorem locate_of_parent (hok : IsAcceptable path) (hnames : path.parts ≠ [])
    (hparent : fs.locate path.parent = .ok (fs.placeOf path.parent))
    (hfolder : fs.entryAt? (fs.placeOf path.parent) = some .folder) : fs.locate path = .ok (fs.placeOf path) := by
  rw [locate_eq_ok_placeOf_iff] at hparent ⊢
  refine ⟨hok, fun m hm => ?_⟩
  rw [passed_eq_concat fs hnames, List.mem_append, List.mem_singleton] at hm
  rcases hm with hm | rfl
  · exact hparent.2 m hm
  · exact hfolder

/-! ## Room -/

/-- There is room for a file at a path: the system takes the path, no file is in the way, and the place is not, and
    will not be, that of a folder. The folders on the way may be missing. -/
structure HasRoom (fs : FileSystem) (path : Path) : Prop where
  acceptable : IsAcceptable path
  named : path.parts ≠ []
  way : ∀ l ∈ fs.passed path, ∀ bytes, fs.entryAt? l ≠ some (.file bytes)
  free : fs.entryAt? (fs.placeOf path) ≠ some .folder
  apart : fs.placeOf path ∉ fs.passed path

/-! ## Added folders -/

/-- A disk on which folders have been added, at some of these places and nowhere else. -/
structure AddsFolders (ls : List Location) (fs fs' : FileSystem) : Prop where
  workingFolder : fs'.workingFolder = fs.workingFolder
  entry : ∀ l, fs'.entryAt? l = fs.entryAt? l ∨
    l ∈ ls ∧ fs.entryAt? l = none ∧ fs'.entryAt? l = some .folder

namespace AddsFolders

variable {ls ls' : List Location} {fs₁ fs₂ fs₃ : FileSystem}

theorem refl (ls : List Location) (fs : FileSystem) : AddsFolders ls fs fs := ⟨rfl, fun _ => .inl rfl⟩

theorem trans (h₁ : AddsFolders ls fs₁ fs₂) (h₂ : AddsFolders ls fs₂ fs₃) : AddsFolders ls fs₁ fs₃ := by
  refine ⟨h₂.workingFolder.trans h₁.workingFolder, fun l => ?_⟩
  rcases h₁.entry l with hl₁ | ⟨hmem, hnone, hfolder⟩
  · rcases h₂.entry l with hl₂ | ⟨hmem, hnone, hfolder⟩
    · exact .inl (hl₂.trans hl₁)
    · exact .inr ⟨hmem, hl₁ ▸ hnone, hfolder⟩
  · rcases h₂.entry l with hl₂ | ⟨-, -, hfolder⟩
    · exact .inr ⟨hmem, hnone, hl₂.trans hfolder⟩
    · exact .inr ⟨hmem, hnone, hfolder⟩

theorem mono (h : AddsFolders ls fs fs') (hls : ls ⊆ ls') : AddsFolders ls' fs fs' :=
  ⟨h.workingFolder, fun l => (h.entry l).imp_right fun ⟨hmem, hl⟩ => ⟨hls hmem, hl⟩⟩

theorem put (hl : l ∈ ls) (hnone : fs.entryAt? l = none) : AddsFolders ls fs (fs.put l .folder) := by
  refine ⟨rfl, fun m => ?_⟩
  by_cases hlm : l = m
  · subst hlm
    exact .inr ⟨hl, hnone, entryAt?_put_of_eq_none hnone .folder⟩
  · exact .inl (entryAt?_put_of_ne fs hlm .folder)

theorem grows (h : AddsFolders ls fs fs') : Grows fs fs' := by
  refine ⟨h.workingFolder, fun l hl => ?_, fun l bytes hl => ⟨bytes, ?_⟩⟩
  · rcases h.entry l with heq | ⟨-, -, hfolder⟩
    · exact heq.trans hl
    · exact hfolder
  · rcases h.entry l with heq | ⟨-, hnone, -⟩
    · exact heq.trans hl
    · rw [hnone] at hl
      cases hl

/-- No file has been added. -/
theorem ne_file (h : AddsFolders ls fs fs') {bytes : Text.Bytes} (hl : fs.entryAt? l ≠ some (.file bytes)) :
    fs'.entryAt? l ≠ some (.file bytes) := by
  rcases h.entry l with heq | ⟨-, -, hfolder⟩
  · rwa [heq]
  · rw [hfolder]
    simp

end AddsFolders

end FileSystem

end Stencil
