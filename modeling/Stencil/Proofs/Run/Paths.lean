import Stencil.Proofs.Manifest
import Stencil.Proofs.Run.Places

/-!
# `Stencil.Proofs.Run.Paths` — the paths that a run reports

## Contents
- **Forests.** `Path.IsForest` says of the paths of folders and files that they are distinct and below a base, and that
  each lies in one of the folders, but for the roots, which lie in the base.
- **Plain names.** The folders and files of an outline lie so from any base, if their names are plain and no path
  comes twice (`HasPlainNames.isForest`).
- **Distinct names.** If names are distinct in each folder, no path comes twice, in the report as in the manifest
  (`isForest_of_generate`).
-/

namespace Stencil

/-! ## Forests -/

namespace Path

/-- A path is below another if it goes on from there by names, at least one, that all lead down. -/
def IsBelow (p base : Path) : Prop :=
  p.root = base.root ∧ ∃ names, names ≠ [] ∧ (∀ c ∈ names, IsPlainComponent c) ∧ p.parts = base.parts ++ names

/-- The path continued by names that lead down is below it. -/
theorem isBelow_below {names : List String} (hne : names ≠ []) (h : ∀ c ∈ names, IsPlainComponent c) (base : Path) :
    (base.below names).IsBelow base := by
  have hproper : ∀ c ∈ names, IsComponent c := fun c hc => (h c hc).1
  exact ⟨root_below hproper base, names, hne, h, parts_below hproper base⟩

/-- Folders and files below a base: no path comes twice, and each is that of something in one of the folders, but for
    the roots, which are in the base. -/
structure IsForest (base : Path) (roots folders files : List Path) : Prop where
  nodup : (folders ++ files).Nodup
  below : ∀ p ∈ folders ++ files, p.IsBelow base
  root : ∀ p ∈ roots, p ∈ folders ∧ p.parent = base
  folder : ∀ p ∈ folders, p ∈ roots ∨ p.parent ∈ folders
  file : ∀ p ∈ files, p.parent ∈ folders

end Path

namespace Settings

variable {s : Settings} {o : Outline}

/-! ## Plain names -/

theorem map_folderName_of_mem_walk {p : List String × Folder} (hp : p ∈ o.walk) :
    p.1.map s.folderName = p.1.dropLast.map s.folderName ++ [s.folderName p.2.name] := by
  have hlast := congrArg (List.map s.folderName) (Folder.names_of_mem_walkAll o.folders hp)
  rwa [List.map_append, List.map_singleton] at hlast

section Below

variable (h : s.HasPlainNames o) {p : List String × Folder} (hp : p ∈ o.walk) (base : Path)

include h hp

theorem HasPlainNames.isBelow_folder : (base.below (p.1.map s.folderName)).IsBelow base := by
  refine Path.isBelow_below ?_ (h.plain_of_mem_walk hp) base
  rw [map_folderName_of_mem_walk hp]
  exact List.concat_ne_nil _ _

theorem HasPlainNames.isBelow_file {f : File} (hf : f ∈ p.2.files) :
    (base.below (p.1.map s.folderName) / s.fileName f).IsBelow base := by
  rw [← Path.below_concat]
  exact Path.isBelow_below (List.concat_ne_nil _ _) (h.plain_of_mem_files hp hf) base

/-- The parent of a folder is where the names before its own lead. -/
theorem HasPlainNames.parent_folder :
    (base.below (p.1.map s.folderName)).parent = base.below (p.1.dropLast.map s.folderName) := by
  rw [map_folderName_of_mem_walk hp, Path.below_concat, Path.parent_join_component (h p hp).1.1]

end Below

/-- **Names that lead down make a forest**, from any base, if no path comes twice. -/
theorem HasPlainNames.isForest (h : s.HasPlainNames o) {base : Path} {folders files : List Path}
    (hfolders : folders = o.walk.map fun p => base.below (p.1.map s.folderName))
    (hfiles : files.Perm
      (o.walk.flatMap fun p => p.2.files.map fun f => base.below (p.1.map s.folderName) / s.fileName f))
    (hnodup : (folders ++ files).Nodup) :
    Path.IsForest base (o.folders.map fun f => base / s.folderName f.name) folders files := by
  have hfolder : ∀ p, p ∈ folders ↔ ∃ q ∈ o.walk, base.below (q.1.map s.folderName) = p := by
    intro p
    rw [hfolders, List.mem_map]
  have hfile : ∀ p ∈ files, ∃ q ∈ o.walk, ∃ f ∈ q.2.files, base.below (q.1.map s.folderName) / s.fileName f = p := by
    intro p hp
    obtain ⟨q, hq, hin⟩ := List.mem_flatMap.mp (hfiles.mem_iff.mp hp)
    exact ⟨q, hq, List.mem_map.mp hin⟩
  constructor
  · exact hnodup
  · intro p hp
    rcases List.mem_append.mp hp with hp | hp
    · obtain ⟨q, hq, rfl⟩ := (hfolder p).mp hp
      exact h.isBelow_folder hq base
    · obtain ⟨q, hq, f, hf, rfl⟩ := hfile p hp
      exact h.isBelow_file hq base hf
  · intro p hp
    obtain ⟨f, hf, rfl⟩ := List.mem_map.mp hp
    have hroot : ([] ++ [f.name], f) ∈ o.walk := Folder.mem_walkAll_of_mem hf
    exact ⟨(hfolder _).mpr ⟨_, hroot, rfl⟩, Path.parent_join_component (h _ hroot).1.1 base⟩
  · intro p hp
    obtain ⟨q, hq, rfl⟩ := (hfolder p).mp hp
    rcases Folder.around_of_mem_walkAll o.folders hq with ⟨f, hf, rfl⟩ | ⟨around, haround, hnames⟩
    · exact .inl (List.mem_map.mpr ⟨f, hf, rfl⟩)
    · right
      rw [h.parent_folder hq, hnames]
      exact (hfolder _).mpr ⟨around, haround, rfl⟩
  · intro p hp
    obtain ⟨q, hq, f, hf, rfl⟩ := hfile p hp
    rw [Path.parent_join_component ((h q hq).2 f hf).1]
    exact (hfolder _).mpr ⟨q, hq, rfl⟩

/-! ## Distinct names -/

/-- **With plain and distinct names, no path comes twice in a report.** -/
theorem nodup_of_reports {r : Report} (hplain : s.HasPlainNames o) (hdistinct : s.HasDistinctNames o)
    (h : s.Reports (s.plan o) r) : (r.folders ++ r.files).Nodup := by
  have hplaces : ((s.plan o).map fun t => ({} : FileSystem).placeOf (s.pathOf t)).Nodup :=
    nodup_places hplain hdistinct
  have hpaths : ((s.plan o).map s.pathOf).Nodup := by
    refine List.Nodup.of_map (({} : FileSystem).placeOf ·) ?_
    rwa [List.map_map]
  exact h.perm.nodup_iff.mp hpaths

/-- The manifest names what the report does, from another base, so no path comes twice there either. -/
theorem nodup_of_manifest {r : Report} (hplain : s.HasPlainNames o) (hdistinct : s.HasDistinctNames o)
    (h : s.Reports (s.plan o) r) :
    ((Manifest.ofOutline s o).groupPaths.map Path.ofString ++
      (Manifest.ofOutline s o).allFiles.map Path.ofString).Nodup := by
  have hnodup := nodup_of_reports hplain hdistinct h
  rw [h.folders, h.files, filterMap_folderOf?_plan, filterMap_fileOf?_plan, map_fst_filesOf] at hnodup
  -- in front of every path goes the folder of the project
  have hfolders : ((Manifest.ofOutline s o).groupPaths.map Path.ofString).map (s.projectDir / ·) =
      o.walk.map fun p => s.folderPath p.1 := by
    rw [List.map_map]
    exact Manifest.map_join_groupPaths s o
  have hfiles : ((Manifest.ofOutline s o).allFiles.map Path.ofString).map (s.projectDir / ·) =
      (Folder.climbAll [] o.folders).flatMap s.filesAt := by
    rw [List.map_map]
    exact Manifest.map_join_allFiles s o
  have hclimb := (Folder.climbAll_perm_walkAll [] o.folders).flatMap_right s.filesAt
  refine List.Nodup.of_map (s.projectDir / ·) ?_
  rw [List.map_append, hfolders, hfiles]
  exact (hclimb.append_left _).nodup_iff.mpr hnodup

end Settings

namespace Generator

variable {g : Generator} {o : Outline} {st : RunState}

/-- A run that is for show, or has a result, has one that reports the plan. -/
theorem exists_reports (h : g.settings.dryRun = true ∨ ∃ r st', Job.exec (g.generate o) st = (.ok r, st')) :
    ∃ r st', Job.exec (g.generate o) st = (.ok r, st') ∧ g.settings.Reports (g.settings.plan o) r := by
  obtain ⟨r, st', hrun⟩ : ∃ r st', Job.exec (g.generate o) st = (.ok r, st') := by
    rcases h with hdry | h
    · obtain ⟨r, st', hrun, -⟩ := exec_performAll_of_dryRun (g := g) (s := st) hdry (g.settings.plan o)
      exact ⟨r, st', by rw [generate_eq_performAll, hrun]⟩
    · exact h
  have hplan := hrun
  rw [generate_eq_performAll] at hplan
  exact ⟨r, st', hrun, g.performAll_yields _ _ _ _ hplan⟩

/-- **Names that are distinct in each folder make paths that are distinct everywhere.** If the names of an outline are
    plain, and those in each folder and those of the root folders distinct, then a run that is for show or succeeds
    reports a forest of paths below the output, and the manifest lists one below the target path. -/
theorem isForest_of_generate (hplain : g.settings.HasPlainNames o) (hdistinct : g.settings.HasDistinctNames o)
    (h : g.settings.dryRun = true ∨ ∃ r st', Job.exec (g.generate o) st = (.ok r, st')) :
    ∃ r st', Job.exec (g.generate o) st = (.ok r, st') ∧
      Path.IsForest g.settings.outputRoot
        (o.folders.map fun f => g.settings.outputRoot / g.settings.folderName f.name) r.folders r.files ∧
      Path.IsForest (.ofString g.settings.targetPath)
        (o.folders.map fun f => Path.ofString g.settings.targetPath / g.settings.folderName f.name)
        ((Manifest.ofOutline g.settings o).groupPaths.map .ofString)
        ((Manifest.ofOutline g.settings o).allFiles.map .ofString) := by
  obtain ⟨r, st', hrun, hreports⟩ := exists_reports h
  refine ⟨r, st', hrun, hplain.isForest ?_ ?_ ?_, hplain.isForest ?_ ?_ ?_⟩
  · rw [hreports.folders, Settings.filterMap_folderOf?_plan]
    rfl
  · rw [hreports.files, Settings.filterMap_fileOf?_plan, Settings.map_fst_filesOf]
    exact .refl _
  · exact Settings.nodup_of_reports hplain hdistinct hreports
  · rw [Manifest.groupPaths_ofOutline, List.map_map]
    exact List.map_congr_left fun p _ => Path.ofString_text _
  · have hat : ∀ p ∈ Folder.climbAll [] o.folders,
        (p.2.files.map fun f => (g.settings.relativePath p.1 / g.settings.fileName f).text).map Path.ofString =
          p.2.files.map fun f => g.settings.relativePath p.1 / g.settings.fileName f := by
      intro p _
      rw [List.map_map]
      exact List.map_congr_left fun f _ => Path.ofString_text _
    rw [Manifest.allFiles_ofOutline, List.map_flatMap, List.flatMap_congr hat]
    exact (Folder.climbAll_perm_walkAll [] o.folders).flatMap_right _
  · exact Settings.nodup_of_manifest hplain hdistinct hreports

/-- A folder with a file and a subfolder, and files of one name in both, whose names are completed. -/
theorem isForest_of_generate_nested :
    let parameters : Scope := .ofList [("app", "Shop")]
    let s : Settings := { projectPath := .ofString "p/x", targetPath := "../t", dryRun := true, parameters }
    let x : File := { name := "___app___View(main)" }
    let o : Outline := { folders := [.mk "a" [x] [.mk "___app___" [x] []], .mk "b" [] []] }
    ∃ r st', Job.exec (generate { settings := s } o) {} = (.ok r, st') ∧
      Path.IsForest s.outputRoot (o.folders.map fun f => s.outputRoot / s.folderName f.name) r.folders r.files ∧
      Path.IsForest (.ofString s.targetPath) (o.folders.map fun f => Path.ofString s.targetPath / s.folderName f.name)
        ((Manifest.ofOutline s o).groupPaths.map .ofString) ((Manifest.ofOutline s o).allFiles.map .ofString) := by
  intro parameters s x o
  have hplain : s.HasPlainNames o := by decide +kernel +revert
  have hdistinct : s.HasDistinctNames o := by
    clear hplain
    decide +kernel +revert
  exact @isForest_of_generate { settings := s } o {} hplain hdistinct (.inl rfl)

end Generator

end Stencil
