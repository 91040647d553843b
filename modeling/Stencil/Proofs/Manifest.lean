import Stencil.Manifest
import Stencil.Proofs.Run.Step

/-!
# `Stencil.Proofs.Manifest` — the manifest and the report

## Contents
- **Relative paths.** A path of the manifest, joined with the folder of the project, is the path that the
  run works with.
- **Agreement.** The manifest lists the folders in the order of the walk and the files in that of the climb,
  all with the paths of the report (`manifest_agrees`).
-/

namespace Stencil

/-! ## Relative paths -/

namespace Settings

variable (s : Settings)

/-- The path of the folder that names lead to, from the folder of the project on. -/
def relativePath (names : List String) : Path := (Path.ofString s.targetPath).below (names.map s.folderName)

theorem relativePath_concat (names : List String) (name : String) :
    s.relativePath (names ++ [name]) = s.relativePath names / s.folderName name := by
  rw [relativePath, List.map_append, List.map_singleton, Path.below_concat]
  rfl

/-- **Joined with the folder of the project, a relative path is the path itself.** -/
theorem join_relativePath (names : List String) : s.projectDir / s.relativePath names = s.folderPath names :=
  Path.join_below s.projectDir (.ofString s.targetPath) _

theorem join_text_relativePath (names : List String) :
    s.projectDir / (s.relativePath names).text = s.folderPath names := by
  show s.projectDir / Path.ofString (s.relativePath names).text = _
  rw [Path.ofString_text, join_relativePath]

theorem join_text_relativePath_file (names : List String) (name : String) :
    s.projectDir / (s.relativePath names / name).text = s.folderPath names / name := by
  show s.projectDir / Path.ofString (s.relativePath names / name).text = _
  rw [Path.ofString_text]
  show s.projectDir / (s.relativePath names / Path.ofString name) = _
  rw [← Path.join_assoc, join_relativePath]
  rfl

end Settings

/-! ## Agreement -/

namespace Group

mutual

/-- The paths of a group and its subgroups, each before those of its subgroups. -/
def paths : Group → List String
  | .mk _ path groups _ => path :: pathsOf groups

/-- The paths of several groups. -/
def pathsOf : List Group → List String
  | [] => []
  | g :: gs => paths g ++ pathsOf gs

end

variable (s : Settings)

mutual

theorem paths_ofFolder (above : List String) : (f : Folder) →
    paths (ofFolder s (s.relativePath above) f) =
      (Folder.walk above f).map fun p => (s.relativePath p.1).text
  | .mk name files folders => by
    rw [ofFolder, paths, Folder.walk, List.map_cons, ← Settings.relativePath_concat,
      pathsOf_ofFolders (above ++ [name]) folders]

theorem pathsOf_ofFolders (above : List String) : (fs : List Folder) →
    pathsOf (ofFolders s (s.relativePath above) fs) =
      (Folder.walkAll above fs).map fun p => (s.relativePath p.1).text
  | [] => by rw [ofFolders, pathsOf, Folder.walkAll_nil, List.map_nil]
  | f :: fs => by
    rw [ofFolders, pathsOf, Folder.walkAll_cons, List.map_append, paths_ofFolder above f,
      pathsOf_ofFolders above fs]

end

mutual

theorem allFiles_ofFolder (above : List String) : (f : Folder) →
    allFiles (ofFolder s (s.relativePath above) f) =
      (Folder.climb above f).flatMap fun p => p.2.files.map fun f => (s.relativePath p.1 / s.fileName f).text
  | .mk name files folders => by
    rw [ofFolder, allFiles, Folder.climb, List.flatMap_append, ← Settings.relativePath_concat,
      allFilesOf_ofFolders (above ++ [name]) folders, List.flatMap_singleton]
    rfl

theorem allFilesOf_ofFolders (above : List String) : (fs : List Folder) →
    allFilesOf (ofFolders s (s.relativePath above) fs) =
      (Folder.climbAll above fs).flatMap fun p => p.2.files.map fun f => (s.relativePath p.1 / s.fileName f).text
  | [] => by rw [ofFolders, allFilesOf, Folder.climbAll, List.flatMap_nil]
  | f :: fs => by
    rw [ofFolders, allFilesOf, Folder.climbAll, List.flatMap_append, allFiles_ofFolder above f,
      allFilesOf_ofFolders above fs]

end

end Group

namespace Manifest

/-- The paths of all groups, each before those of its subgroups. -/
def groupPaths (m : Manifest) : List String := Group.pathsOf m.groups

variable (s : Settings) (o : Outline)

theorem groupPaths_ofOutline : (ofOutline s o).groupPaths = o.walk.map fun p => (s.relativePath p.1).text :=
  Group.pathsOf_ofFolders s [] o.folders

theorem allFiles_ofOutline :
    (ofOutline s o).allFiles = (Folder.climbAll [] o.folders).flatMap fun p =>
      p.2.files.map fun f => (s.relativePath p.1 / s.fileName f).text :=
  Group.allFilesOf_ofFolders s [] o.folders

theorem map_join_groupPaths :
    (ofOutline s o).groupPaths.map (fun path : String => s.projectDir / path) = o.walk.map fun p => s.folderPath p.1 := by
  rw [groupPaths_ofOutline, List.map_map]
  exact List.map_congr_left fun p _ => s.join_text_relativePath p.1

theorem map_join_allFiles :
    (ofOutline s o).allFiles.map (fun path : String => s.projectDir / path) =
      (Folder.climbAll [] o.folders).flatMap s.filesAt := by
  rw [allFiles_ofOutline, List.map_flatMap]
  refine List.flatMap_congr fun p _ => ?_
  rw [List.map_map]
  exact List.map_congr_left fun f _ => s.join_text_relativePath_file p.1 (s.fileName f)

/-- A manifest that says the same as a report, but for the folder of the project in front of every path. It lists
    the same folders in the same order, and the same files, those of each folder together and in the order of
    the outline. -/
structure Agrees (m : Manifest) (r : Report) : Prop where
  folders : m.groupPaths.map (fun path : String => s.projectDir / path) = r.folders
  files : (m.allFiles.map fun path : String => s.projectDir / path).Perm r.files
  order : ∃ walk' : List (List String × Folder), walk'.Perm o.walk ∧
    r.files = o.walk.flatMap s.filesAt ∧
    (m.allFiles.map fun path : String => s.projectDir / path) = walk'.flatMap s.filesAt

end Manifest

/-- **The manifest and the report agree on every path**, if the run succeeds or is for show. -/
theorem Generator.manifest_agrees {g : Generator} {o : Outline} {st : RunState}
    (h : g.settings.dryRun = true ∨ ∃ r st', Job.exec (g.generate o) st = (.ok r, st')) :
    ∃ r st', Job.exec (g.generate o) st = (.ok r, st') ∧
      Manifest.Agrees g.settings o (.ofOutline g.settings o) r := by
  obtain ⟨r, st', hrun⟩ : ∃ r st', Job.exec (g.generate o) st = (.ok r, st') := by
    rcases h with hdry | h
    · obtain ⟨r, st', hrun, -⟩ := exec_performAll_of_dryRun (g := g) (s := st) hdry (g.settings.plan o)
      exact ⟨r, st', by rw [generate_eq_performAll, hrun]⟩
    · exact h
  refine ⟨r, st', hrun, ?_⟩
  rw [generate_eq_performAll] at hrun
  have hreports := g.performAll_yields _ _ _ _ hrun
  have hfiles : r.files = o.walk.flatMap g.settings.filesAt := by
    rw [hreports.files, Settings.filterMap_fileOf?_plan, Settings.map_fst_filesOf]
  have hclimb := Folder.climbAll_perm_walkAll [] o.folders
  have hall := Manifest.map_join_allFiles g.settings o
  constructor
  · rw [Manifest.map_join_groupPaths, hreports.folders, Settings.filterMap_folderOf?_plan]
  · rw [hall, hfiles]
    exact hclimb.flatMap_right g.settings.filesAt
  · exact ⟨_, hclimb, hfiles, hall⟩

/-- A dry run with a target that climbs, and a subfolder with an absolute name. -/
theorem Generator.manifest_agrees_absolute :
    let s : Settings := { projectPath := .ofString "p/x", targetPath := "../t", dryRun := true }
    let o : Outline := { folders := [.mk "a" [{ name := "y" }] [.mk "/b" [{ name := "." }, { name := "z" }] []]] }
    ∃ r st', Job.exec (generate { settings := s } o) {} = (.ok r, st') ∧
      Manifest.Agrees s o (.ofOutline s o) r := by
  intro s o
  exact @manifest_agrees { settings := s } o {} (.inl rfl)

end Stencil
