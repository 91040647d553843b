import Mathlib.Data.List.Nodup
import Stencil.Proofs.Run.Makes

/-!
# `Stencil.Proofs.Run.Places` — the places of a plan

## Contents
- **Distinct names.** `Settings.HasDistinctNames` says that the names of the root folders are distinct, and so are those
  in each folder.
- **Spread.** Tasks are `Spread` over names if each is at or below one of them, and their places are distinct. What is
  spread over different names is spread together, and a folder is spread with what is in it.
- **Plans.** With plain and distinct names, the tasks of a plan have distinct places (`nodup_places`).
-/

namespace Stencil.Settings

variable {s : Settings} {ts us : List Task}

/-! ## Distinct names -/

variable (s) in
/-- The names that the files and subfolders of a folder get. -/
def namesIn (f : Folder) : List String := f.files.map s.fileName ++ f.folders.map fun g => s.folderName g.name

/-- The names of the root folders are distinct, and so are those in each folder. -/
def HasDistinctNames (s : Settings) (o : Outline) : Prop :=
  (o.folders.map fun f => s.folderName f.name).Nodup ∧ ∀ p ∈ o.walk, (s.namesIn p.2).Nodup

instance (s : Settings) (o : Outline) : Decidable (s.HasDistinctNames o) :=
  inferInstanceAs (Decidable (_ ∧ ∀ p ∈ o.walk, (s.namesIn p.2).Nodup))

/-- Whether the names of a folder and of its files are plain, and those of its files and subfolders distinct. -/
structure IsNeat (s : Settings) (f : Folder) : Prop where
  name : IsPlainComponent (s.folderName f.name)
  files : ∀ x ∈ f.files, IsPlainComponent (s.fileName x)
  distinct : (s.namesIn f).Nodup

/-! ## Spread -/

/-- Tasks at distinct places, each at or below one of some names from a location on. -/
structure Spread (place : Task → Location) (l : Location) (names : List String) (ts : List Task) : Prop where
  nodup : (ts.map place).Nodup
  below : ∀ t ∈ ts, ∃ n ∈ names, l ++ [n] <+: place t

/-- What is below different names is at different places. -/
theorem ne_of_prefix {l m k : Location} {a b : String} (hne : a ≠ b) (hl : l ++ [a] <+: m) (hm : l ++ [b] <+: k) :
    m ≠ k := by
  rintro rfl
  have hsame : l ++ [a] <+: l ++ [b] := List.prefix_of_prefix_length_le hl hm (by simp)
  have heq := hsame.eq_of_length (by simp)
  exact hne (by simpa using heq)

section Spread

variable {place : Task → Location} {l : Location} {ns ms : List String}

theorem spread_nil : Spread place l [] [] := ⟨List.nodup_nil, by simp⟩

/-- Tasks below different names are spread together. -/
theorem Spread.append (h : Spread place l ns ts) (h' : Spread place l ms us) (hapart : ∀ a ∈ ns, ∀ b ∈ ms, a ≠ b) :
    Spread place l (ns ++ ms) (ts ++ us) := by
  refine ⟨?_, fun t ht => ?_⟩
  · rw [List.map_append, List.nodup_append]
    refine ⟨h.nodup, h'.nodup, fun m hm k hk => ?_⟩
    obtain ⟨t, ht, rfl⟩ := List.mem_map.mp hm
    obtain ⟨u, hu, rfl⟩ := List.mem_map.mp hk
    obtain ⟨a, ha, hta⟩ := h.below t ht
    obtain ⟨b, hb, hub⟩ := h'.below u hu
    exact ne_of_prefix (hapart a ha b hb) hta hub
  · rcases List.mem_append.mp ht with ht | ht
    · obtain ⟨n, hn, hprefix⟩ := h.below t ht
      exact ⟨n, List.mem_append_left _ hn, hprefix⟩
    · obtain ⟨n, hn, hprefix⟩ := h'.below t ht
      exact ⟨n, List.mem_append_right _ hn, hprefix⟩

/-- A folder is spread with what is in it. -/
theorem Spread.enclose {n : String} {t : Task} (h : Spread place (l ++ [n]) ns ts) (ht : place t = l ++ [n]) :
    Spread place l [n] (t :: ts) := by
  refine ⟨?_, fun u hu => ⟨n, List.mem_singleton.mpr rfl, ?_⟩⟩
  · rw [List.map_cons, List.nodup_cons]
    refine ⟨fun hmem => ?_, h.nodup⟩
    -- what is in a folder is deeper than the folder
    obtain ⟨u, hu, hplace⟩ := List.mem_map.mp hmem
    obtain ⟨m, -, hprefix⟩ := h.below u hu
    have hle := hprefix.length_le
    rw [hplace, ht] at hle
    simp at hle
  · rcases List.mem_cons.mp hu with rfl | hu
    · exact ht ▸ List.prefix_refl _
    · obtain ⟨m, -, hprefix⟩ := h.below u hu
      exact (List.prefix_append _ _).trans hprefix

/-- Files with distinct names are spread. -/
theorem spread_files {folder : Path} {files : List File} (hnames : (files.map s.fileName).Nodup)
    (hplace : ∀ x ∈ files, place (.file folder x) = l ++ [s.fileName x]) :
    Spread place l (files.map s.fileName) (files.map (.file folder)) := by
  refine ⟨?_, fun t ht => ?_⟩
  · have hplaces : (files.map (Task.file folder)).map place = (files.map s.fileName).map (l ++ [·]) := by
      rw [List.map_map, List.map_map]
      exact List.map_congr_left hplace
    rw [hplaces]
    exact List.Nodup.map (fun a b hab => by simpa using hab) hnames
  · obtain ⟨x, hx, rfl⟩ := List.mem_map.mp ht
    exact ⟨s.fileName x, List.mem_map_of_mem hx, hplace x hx ▸ List.prefix_refl _⟩

end Spread

/-! ## Plans -/

section Plans

variable {fs : FileSystem}

/-- A folder and its files are spread with what is in its subfolders. -/
theorem spread_inside {parent : Path} {name : String} {files : List File} {folders : List Folder}
    (hneat : s.IsNeat (.mk name files folders))
    (hfolders : Spread (fun t => fs.placeOf (s.pathOf t)) (fs.placeOf (parent / s.folderName name))
      (folders.map fun f => s.folderName f.name) ts) :
    Spread (fun t => fs.placeOf (s.pathOf t)) (fs.placeOf parent) [s.folderName name]
      (.folder parent name :: (files.map (.file (parent / s.folderName name)) ++ ts)) := by
  obtain ⟨hname, hplain, hdistinct⟩ := hneat
  obtain ⟨hnodup, -, hapart⟩ := List.nodup_append.mp hdistinct
  have hself : fs.placeOf (parent / s.folderName name) = fs.placeOf parent ++ [s.folderName name] :=
    FileSystem.placeOf_join_plain hname parent
  have hfiles : Spread (fun t => fs.placeOf (s.pathOf t)) (fs.placeOf (parent / s.folderName name))
      (files.map s.fileName) (files.map (.file (parent / s.folderName name))) :=
    spread_files hnodup fun x hx => FileSystem.placeOf_join_plain (hplain x hx) _
  have hin := hfiles.append hfolders hapart
  rw [hself] at hin
  exact hin.enclose hself

mutual

/-- What a folder asks for is spread. -/
theorem spread_planFolder (parent : Path) {above : List String} : (f : Folder) →
    (∀ p ∈ Folder.walk above f, s.IsNeat p.2) →
    Spread (fun t => fs.placeOf (s.pathOf t)) (fs.placeOf parent) [s.folderName f.name] (s.planFolder parent f)
  | .mk name files folders, h => by
    rw [Folder.walk] at h
    have hneat : s.IsNeat (.mk name files folders) := h _ List.mem_cons_self
    have hdeep : ∀ p ∈ Folder.walkAll (above ++ [name]) folders, s.IsNeat p.2 :=
      fun p hp => h p (List.mem_cons_of_mem _ hp)
    obtain ⟨-, hfolders, -⟩ := List.nodup_append.mp hneat.distinct
    rw [planFolder]
    exact spread_inside hneat (spread_planFolders _ folders hfolders hdeep)

theorem spread_planFolders (parent : Path) {above : List String} : (folders : List Folder) →
    (folders.map fun f => s.folderName f.name).Nodup → (∀ p ∈ Folder.walkAll above folders, s.IsNeat p.2) →
    Spread (fun t => fs.placeOf (s.pathOf t)) (fs.placeOf parent) (folders.map fun f => s.folderName f.name)
      (s.planFolders parent folders)
  | [], _, _ => by
    rw [planFolders]
    exact spread_nil
  | f :: folders, hnames, h => by
    rw [Folder.walkAll_cons] at h
    rw [List.map_cons, List.nodup_cons] at hnames
    have hfirst := spread_planFolder parent f fun p hp => h p (List.mem_append_left _ hp)
    have hothers := spread_planFolders parent folders hnames.2 fun p hp => h p (List.mem_append_right _ hp)
    rw [planFolders]
    refine hfirst.append hothers fun a ha b hb => ?_
    rintro rfl
    exact hnames.1 (List.mem_singleton.mp ha ▸ hb)

end

/-- **With plain and distinct names, the tasks of a plan have distinct places.** -/
theorem nodup_places {o : Outline} (hplain : s.HasPlainNames o) (hdistinct : s.HasDistinctNames o) :
    ((s.plan o).map fun t => fs.placeOf (s.pathOf t)).Nodup := by
  have hneat : ∀ p ∈ o.walk, s.IsNeat p.2 := by
    intro p hp
    obtain ⟨hname, hfiles⟩ := hplain p hp
    exact ⟨hname, hfiles, hdistinct.2 p hp⟩
  exact (spread_planFolders _ o.folders hdistinct.1 hneat).nodup

end Plans

end Stencil.Settings
