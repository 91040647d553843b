import Stencil.CommandLine.Command
import Stencil.Proofs.Run.Saving
import Stencil.Proofs.Yaml.Document
import Stencil.Proofs.Yaml.Portable

/-!
# `Stencil.Proofs.CommandLine.Parameters` — parameters in a file and on the command line

A file of parameters is read as YAML, also if it holds JSON. Not every object of strings means the same then:
`Yaml.IsPortable` says which do.

## Contents
- **Files.** A portable object of strings gives its members as parameters (`FileParameters.ofYamlTextWith_of_isPortable`).
- **Runs.** With it the settings are the same whether it is given in a file or on the command line
  (`generatorOf_of_isPortable`).
- **Other texts.** Objects of strings that are not portable, and mean something else in a file or nothing at all.
-/

namespace Stencil

open Text Yaml

/-! ## Files -/

namespace FileParameters

/-- The parameters of a scope as a file gives them. -/
def ofScope (s : Scope) : FileParameters := s.entries.map fun e => (.ofString e.1, .ofString e.2)

theorem addContents_quotedEntry (path : Path) (ps es : List (String × String)) :
    addContents path (ps.map fun e => (.ofString e.1, .ofString e.2)) (es.map Document.quotedEntry) =
      .ok ((Entries.merge ps es).map fun e => (.ofString e.1, .ofString e.2)) := by
  induction es generalizing ps with
  | nil => rfl
  | cons e es ih =>
    have hinsert := Entries.insert_map (fun _ _ => CodePoints.ofString_inj) CodePoints.ofString e.1 e.2 ps
    rw [List.map_cons, Entries.merge_cons, ← ih, ← hinsert]
    rfl

/-- **A portable object of strings gives its members.** -/
theorem ofYamlTextWith_of_isPortable {text : List Char} {s : Scope} (hjson : Scope.ofJson? text = some s)
    (h : IsPortable text) (reader : Yaml.Reader) (path : Path) :
    ofYamlTextWith reader path (normalizeNewlines text) = .ok (ofScope s) := by
  obtain ⟨es, htext, rfl⟩ := Scope.ofJson?_eq_some_iff.mp hjson
  have hcollapse : Entries.merge [] (Entries.collapse es) = Entries.collapse es := Entries.merge_collapse [] es
  rw [ofYamlTextWith, Document.ofText_quotedText (h.quotedText htext) h.isAllowed_of_mem]
  have hadd := addContents_quotedEntry path [] (Entries.collapse es)
  rw [hcollapse] at hadd
  exact hadd

end FileParameters

namespace Parameters

theorem insert_ofString (s : Scope) (name value : String) :
    ({ scope := s } : Parameters).insert name (.ofString value) = { scope := s.insert name value } := by
  simp only [insert, CodePoints.shown_ofString, CodePoints.toString?_ofString, List.filter_nil]

theorem foldl_insert_ofString (s : Scope) (es : List (String × String)) :
    (es.map fun e => (CodePoints.ofString e.1, CodePoints.ofString e.2)).foldl
        (fun p e => (e.1.toString?.map fun name => p.insert name e.2).getD p) ({ scope := s } : Parameters) =
      { scope := s.insertAll es } := by
  induction es generalizing s with
  | nil => rfl
  | cons e es ih =>
    rw [List.map_cons, List.foldl_cons, CodePoints.toString?_ofString, Option.map_some, Option.getD_some,
      insert_ofString, ih]
    rfl

/-- The parameters of a scope give that scope. -/
theorem ofFile_ofScope (s : Scope) : ofFile (FileParameters.ofScope s) = { scope := s } := by
  rw [ofFile, FileParameters.ofScope]
  exact (foldl_insert_ofString .empty s.entries).trans
    (congrArg (fun t => ({ scope := t } : Parameters)) s.ofList_entries)

end Parameters

/-! ## Runs -/

/-- A file of a portable object of strings is read as these parameters. -/
theorem Job.exec_loadParametersWith {st : RunState} {path : Path} {text : List Char} {s : Scope}
    (hfile : st.disk.readFile path = .ok (Utf8.encode text)) (hjson : Scope.ofJson? text = some s)
    (h : IsPortable text) (reader : Yaml.Reader) :
    Job.exec (Job.loadParametersWith reader path) st = (.ok (FileParameters.ofScope s), st) := by
  rw [Job.loadParametersWith, Job.exec_bind, Job.exec_readText_encode hfile]
  simp only [String.toList_ofList, FileParameters.ofYamlTextWith_of_isPortable hjson h]
  rfl

namespace CommandLine

open Scope (ofJsonText_eq_ok_iff)

/-- The options with the parameters in a file. -/
def Options.withFile (o : Options) (file : String) : Options :=
  { o with parametersFile := some file, parameters := none }

/-- The options with the parameters on the command line. -/
def Options.withText (o : Options) (raw : String) : Options :=
  { o with parametersFile := none, parameters := some raw }

theorem nonempty?_of_ne {s : String} (h : s ≠ "") : nonempty? (some s) = some s := by
  rw [nonempty?, Option.filter_some, if_pos (decide_eq_true h)]

theorem exec_parametersWith_withText {raw : String} {s : Scope} (hjson : Scope.ofJsonText raw = .ok s)
    (reader : Yaml.Reader) (o : Options) (st : RunState) :
    Job.exec (parametersWith reader (o.withText raw)) st = (.ok { scope := s }, st) := by
  have hne : raw ≠ "" := by
    rintro rfl
    have hempty : Scope.ofJson? "".toList = none := by decide +kernel
    exact absurd ((ofJsonText_eq_ok_iff.mp hjson).symm.trans hempty) (Option.some_ne_none s)
  have hoverlay : ({} : Parameters).overlay s = { scope := s } :=
    congrArg (fun t => ({ scope := t } : Parameters)) s.ofList_entries
  have hnone : nonempty? (o.withText raw).parametersFile = none := rfl
  have hsome : nonempty? (o.withText raw).parameters = some raw := nonempty?_of_ne hne
  rw [parametersWith]
  simp only [hnone, hsome, hjson, pure_bind, Job.exec_pure, hoverlay]

theorem exec_parametersWith_withFile {st : RunState} {file raw : String} {s : Scope} (hne : file ≠ "")
    (hfile : st.disk.readFile (Path.ofString file) = .ok (Utf8.encode raw.toList))
    (hjson : Scope.ofJsonText raw = .ok s) (h : IsPortable raw.toList) (reader : Yaml.Reader) (o : Options) :
    Job.exec (parametersWith reader (o.withFile file)) st = (.ok { scope := s }, st) := by
  have hload := Job.exec_loadParametersWith hfile (ofJsonText_eq_ok_iff.mp hjson) h reader
  have hsome : nonempty? (o.withFile file).parametersFile = some file := nonempty?_of_ne hne
  have hnone : nonempty? (o.withFile file).parameters = none := rfl
  rw [parametersWith]
  simp only [hnone, hsome]
  rw [Job.exec_bind, map_eq_pure_bind, Job.exec_bind, hload]
  simp only [Job.exec_pure, Parameters.ofFile_ofScope]

/-- **A portable object of strings means the same in a file and on the command line.** The file gives its members, of a
    name the first position with the last value, and whatever the other arguments are, the run has the same settings. -/
theorem generatorOf_of_isPortable {st : RunState} {file raw : String} {s : Scope} (hne : file ≠ "")
    (hfile : st.disk.readFile (Path.ofString file) = .ok (Utf8.encode raw.toList))
    (hjson : Scope.ofJsonText raw = .ok s) (h : IsPortable raw.toList) :
    Job.exec (Job.loadParameters (Path.ofString file)) st = (.ok (FileParameters.ofScope s), st) ∧
      ∀ (a : Arguments) (outline templates : Path) (writes : { n : Nat // 1 ≤ n }),
        Job.exec (generatorOf { a with options := a.options.withFile file } outline templates writes) st =
          Job.exec (generatorOf { a with options := a.options.withText raw } outline templates writes) st := by
  refine ⟨Job.exec_loadParametersWith hfile (ofJsonText_eq_ok_iff.mp hjson) h .none, fun a outline templates writes => ?_⟩
  rw [generatorOf, generatorOf, generatorWith, generatorWith, Job.exec_bind, Job.exec_bind,
    exec_parametersWith_withFile hne hfile hjson h, exec_parametersWith_withText hjson]
  rfl

/-- Gaps with line breaks of all three kinds, escapes, a character beyond U+FFFF, LS and PS, and a name that comes
    again: the parameters of the file, and the same settings from the file and from the command line. -/
theorem generatorOf_of_isPortable_spaced :
    let raw := " \x7b\r\n \"A\" : \"b\\n\\u00e9\",\r\"😀\":\"\u2028\u2029x\"\n,\"A\":\"c\" \x7d\n"
    let disk : FileSystem := { entries := [(["p"], .file (Utf8.encode raw.toList))] }
    let a : Arguments :=
      { project := some "P.xcodeproj", target := some "", templates := some "t", outline := some "o", options := {} }
    (Job.exec (Job.loadParameters (Path.ofString "p")) { disk }).1 =
        .ok [(.ofString "A", .ofString "c"), (.ofString "😀", .ofString "\u2028\u2029x")] ∧
      Job.exec (generatorOf { a with options := a.options.withFile "p" } (.ofString "o") (.ofString "t") usualWrites)
          { disk } =
        Job.exec (generatorOf { a with options := a.options.withText raw } (.ofString "o") (.ofString "t") usualWrites)
          { disk } := by
  intro raw disk a
  have hportable : IsPortable raw.toList := {
    noTab := by decide +kernel
    allowed := List.all_eq_true.mp (by decide +kernel)
    unfolded := by decide +kernel
    whole := by decide +kernel
    near := by decide +kernel }
  let s : Scope := .ofList [("A", "c"), ("😀", "\u2028\u2029x")]
  have hjson : Scope.ofJsonText raw = .ok s := by decide +kernel
  have hsame := @generatorOf_of_isPortable { disk } "p" raw s (by decide) (by decide +kernel) hjson hportable
  refine ⟨?_, hsame.2 a _ _ _⟩
  rw [hsame.1]
  decide +kernel

/-- Texts of JSON that break one condition each: a tab, a character that YAML does not allow, NEL, LS beside a space and
    in front of a document marker, the halves of a pair, and a name with LS in it or with its colon in the next line. -/
def unportable : List String :=
  ["\x7b\t\"A\": \"b\"\x7d", "\x7b\"A\": \"\x7f\"\x7d", "\x7b\"A\": \"b\x85c\"\x7d",
    "\x7b\"A\": \"b\u2028 c\"\x7d", "\x7b\"A\": \"b\u2028--- c\"\x7d", "\x7b\"A\": \"\\ud83d\\ude00\"\x7d",
    "\x7b\"A\u2028\": \"b\"\x7d", "\x7b\"A\"\n: \"b\"\x7d"]

/-- **A file does not give every object of strings its meaning**: a tab between two tokens ends the reading, and other
    texts are read differently or not at all. -/
theorem not_loadParameters_of_unportable :
    let raw := "\x7b\t\"A\": \"b\"\x7d"
    let disk : FileSystem := { entries := [(["p"], .file (Utf8.encode raw.toList))] }
    Scope.ofJsonText raw = .ok (.ofList [("A", "b")]) ∧
      (Job.exec (Job.loadParameters (Path.ofString "p")) { disk }).1 = .error (.yaml (.malformed .strayCharacter)) ∧
      unportable.all fun raw => (Scope.ofJsonText raw).isOk &&
        (FileParameters.ofYamlText (Path.ofString "p") (normalizeNewlines raw.toList)).toOption !=
          (Scope.ofJsonText raw).toOption.map FileParameters.ofScope := by
  decide +kernel

end CommandLine

end Stencil
