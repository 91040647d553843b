import Stencil.Proofs.Json.Dialects
import Stencil.Proofs.Path
import Stencil.Run.Environment
import Stencil.Run.Parameters

/-!
# `Stencil.Proofs.Run.Environment` — settings from variables

The variables of the environment are read by readers of their own: integers as a person types them, and JSON in the
lenient dialect. What is written for settings elsewhere is read by these readers as what it was.

## Contents
- **Integers.** The digits of a number are read as that number, unless they are too many (`integer_toDigits`).
- **Parameters.** An object of strings is read leniently as the scope that it is read as strictly
  (`parse_lenient_of_flatText`).
- **Members.** A member is found under its name among the fields that have a value (`member?_membersOf`).
- **Fields.** The settings that variables give, field by field (`settings_eq_ok`). Environments that are alike in the
  variables that are looked at give the same settings.
- **Parameters alone.** `settings_of_ofJsonText`.
- **All fields.** `Settings.variables` are variables that express settings, and the settings come back
  (`settings_variables`), but for a number of writes with too many digits.
-/

namespace Stencil.Number

open Text

/-! ## Integers -/

section Digits

variable {cs : List Char} (h : ∀ c ∈ cs, isAsciiDigit c = true)

include h

theorem asciiDigits_eq_self : asciiDigits cs = cs := by
  refine (List.map_congr_left fun c hc => ?_).trans (List.map_id cs)
  have hrange := h c hc
  rw [digitValue?_of_isAsciiDigit hrange]
  simp only [isAsciiDigit, Bool.and_eq_true, decide_eq_true_eq] at hrange
  have hback : 0x30 + (c.toNat - 0x30) = c.toNat := by omega
  show Char.ofNat (0x30 + (c.toNat - 0x30)) = c
  rw [hback, Char.ofNat_toNat]

theorem trim_digits : trim isSpace cs = cs := by
  have hspace : ∀ c ∈ cs, isSpace c = false := by
    intro c hc
    have hrange := h c hc
    simp only [isAsciiDigit, Bool.and_eq_true, decide_eq_true_eq] at hrange
    simp only [isSpace, Bool.or_eq_false_iff, Bool.and_eq_false_iff, decide_eq_false_iff_not, beq_eq_false_iff_ne]
    omega
  have hstart : ∀ ds : List Char, ds ⊆ cs → ds.dropWhile isSpace = ds := by
    intro ds hds
    cases ds with
    | nil => rfl
    | cons d ds => exact List.dropWhile_cons_of_neg (by simp [hspace d (hds List.mem_cons_self)])
  rw [trim, trimEnd, hstart cs (List.Subset.refl cs), hstart cs.reverse (by simp), List.reverse_reverse]

theorem dropUnderscores?_digits (afterDigit : Bool) : dropUnderscores? afterDigit cs = some cs := by
  induction cs generalizing afterDigit with
  | nil => rw [dropUnderscores?]
  | cons c cs ih =>
    have hbar : c ≠ '_' := (Json.ne_of_isAsciiDigit (h c List.mem_cons_self) (by decide)).symm
    have hrest := ih (fun d hd => h d (List.mem_cons_of_mem c hd)) (isAsciiDigit c)
    rw [dropUnderscores?.eq_def]
    simp only [hbar, if_false, hrest, Option.map_some]

end Digits

/-- **The digits of a number are read as that number**, unless they are too many. -/
theorem integer_toDigits (n : Nat) :
    integer (Nat.toDigits 10 n) =
      if n < 10 ^ maxDigits then .ok (n : Int) else .error (.tooLong (Nat.toDigits 10 n).length) := by
  have hall : ∀ c ∈ Nat.toDigits 10 n, isAsciiDigit c = true := fun c => Json.isAsciiDigit_of_mem_toDigits
  have hlength := Json.length_toDigits_le_iff n
  have hsign : splitSign (Nat.toDigits 10 n) = (false, Nat.toDigits 10 n) := by
    obtain ⟨c, ds, hds, hc⟩ := Json.toDigits_eq_cons n
    rw [hds, splitSign.eq_def]
    split
    · next heq => exact absurd (List.cons.inj heq).1.symm (Json.ne_of_isAsciiDigit hc (by decide))
    · next heq => exact absurd (List.cons.inj heq).1.symm (Json.ne_of_isAsciiDigit hc (by decide))
    · rfl
  have hleading : (Nat.toDigits 10 n).takeWhile isDigitOrBar = Nat.toDigits 10 n :=
    List.takeWhile_eq_self_iff.mpr fun c hc => by simp [isDigitOrBar, hall c hc]
  have hempty : (Nat.toDigits 10 n).isEmpty = false := by simp
  unfold integer
  rw [asciiDigits_eq_self hall, trim_digits hall, hsign]
  dsimp only
  rw [hleading, dropUnderscores?_digits hall]
  dsimp only
  rw [hempty, Json.ofDigits_toDigits]
  by_cases hn : n < 10 ^ maxDigits
  · rw [if_neg (Nat.not_lt.mpr (hlength.mpr hn)), if_pos hn, if_neg (by simp)]
    rfl
  · rw [if_pos (Nat.lt_of_not_le fun hle => hn (hlength.mp hle)), if_neg hn]

end Stencil.Number

namespace Stencil.Json

/-! ## Parameters -/

theorem Value.collapsedMembers_strings (es : List (String × String)) :
    collapsedMembers (es.map fun e => (e.1, .string e.2)) = es.map fun e => (e.1, .string e.2) := by
  induction es with
  | nil => rw [List.map_nil, collapsedMembers]
  | cons e es ih => rw [List.map_cons, collapsedMembers, collapsed, ih]

/-- **An object of strings is read leniently as a scope**: each name once, at its first position and with its last
    value. -/
theorem parse_lenient_of_flatText {text : List Char} {es : List (String × String)} (h : FlatText text es) :
    parse .lenient text = .ok (Scope.ofList es).toJson := by
  have hcollapse : Entries.collapse (es.map fun e => (e.1, Value.string e.2)) =
      (Entries.collapse es).map fun e => (e.1, .string e.2) :=
    Entries.collapse_map (fun _ _ => id) Value.string es
  rw [parse_lenient (parse_of_flatText h), Value.collapsed, Value.collapsedMembers_strings, hcollapse]
  rfl

/-- What is printed of a scope is an object of its entries, in order. -/
theorem flatText_text (s : Scope) (style : Style) : FlatText (s.toJson.text style).toList s.entries := by
  have hparse : parse .strict (s.toJson.text style).toList = .ok s.toJson :=
    parse_text_of_isShort style (Value.all_toJson_scope (fun _ => rfl) s) (Value.all_toJson_scope (fun _ => rfl) s)
      (Nat.le_trans (Value.nesting_toJson_scope s) (by decide))
  exact flatText_of_parse hparse (Scope.textMembers_map s.entries)

/-! ## Members -/

namespace Value

/-- The members for the fields that have a value. -/
def membersOf (fs : List (String × Option Value)) : List (String × Value) :=
  fs.filterMap fun f => f.2.map fun v => (f.1, v)

theorem membersOf_cons (f : String × Option Value) (fs : List (String × Option Value)) :
    membersOf (f :: fs) = (f.2.map fun v => (f.1, v)).toList ++ membersOf fs := by
  obtain ⟨name, v?⟩ := f
  cases v? <;> rfl

theorem membersOf_append (fs gs : List (String × Option Value)) : membersOf (fs ++ gs) = membersOf fs ++ membersOf gs :=
  List.filterMap_append

theorem member?_cons (name : String) (m : String × Value) (ms : List (String × Value)) :
    member? name (m :: ms) = (member? name ms).or (if m.1 = name then some m.2 else none) := by
  rw [member?, List.reverse_cons, List.find?_append, Option.map_or, List.find?_singleton]
  by_cases h : m.1 = name <;> simp [member?, h]

/-- **A field is found with its value**, if it has one. -/
theorem member?_membersOf {fs : List (String × Option Value)} (h : (Entries.keys fs).Nodup) (name : String) :
    member? name (membersOf fs) = (Entries.get? name fs).join := by
  induction fs with
  | nil => rfl
  | cons f fs ih =>
    obtain ⟨field, v?⟩ := f
    simp only [List.map_cons, List.nodup_cons] at h
    rw [membersOf_cons, Entries.get?]
    by_cases hname : field = name
    · -- no later field has the name
      have hnone : member? name (membersOf fs) = none := by
        rw [ih h.2, Entries.get?_eq_none_iff.mpr (hname ▸ h.1), Option.join_none]
      cases v? with
      | none => simpa [hname] using hnone
      | some v => simp [member?_cons, hname, hnone]
    · cases v? with
      | none => simpa [hname] using ih h.2
      | some v => simp [member?_cons, hname, ih h.2]

end Value

namespace Check

variable {α β : Type} {name : String} {default : α} {check : Value → Checked α} {ms : List (String × Value)}

theorem optional_of_none (h : Value.member? name ms = none) : optional name default check ms = .ok default := by
  rw [optional, h]

/-- A field that is checked back has what is given for it, or its usual value. -/
theorem optional_of_member? {write : β → Value} {read : β → α} (h : ∀ b, check (write b) = .ok (read b)) {b? : Option β}
    (hv : Value.member? name ms = b?.map write) :
    optional name default check ms = .ok ((b?.map read).getD default) := by
  cases b? with
  | none => exact optional_of_none hv
  | some b => exact optional_eq_ok hv (h b)

end Check

end Stencil.Json

namespace Stencil

open Json Number

theorem Path.text_ne_empty (p : Path) : p.text ≠ "" := by
  intro h
  have hback := ofString_text p
  rw [h] at hback
  rw [← hback] at h
  exact absurd h (by decide)

namespace Environment

variable {env env' : Environment}

/-! ## Fields -/

theorem textFields_eq (env : Environment) :
    env.textFields = Value.membersOf (textVariables.map fun v => (v.2, (env.get? v.1).map .string)) := by
  rw [textFields, Value.membersOf, List.filterMap_map]
  simp only [Function.comp_def, Option.map_map]

/-- The fields, each with what is given for it; these parameters and this number of writes are given. -/
def fields (env : Environment) (parameters? : Option Scope) (writes? : Option { n : Nat // 1 ≤ n }) :
    List (String × Option Value) :=
  textVariables.map (fun v => (v.2, (env.get? v.1).map .string)) ++
    [("parameters", parameters?.map Scope.toJson), ("max_parallel_writes", writes?.map fun n => .int n.val)]

theorem member?_fields (env : Environment) (parameters? : Option Scope) (writes? : Option { n : Nat // 1 ≤ n })
    (name : String) : Value.member? name (Value.membersOf (env.fields parameters? writes?)) =
      (Entries.get? name (env.fields parameters? writes?)).join := by
  refine Value.member?_membersOf ?_ name
  simp [fields, textVariables]

theorem settings_of_checkMembers {parameters writes : List (String × Value)} {s : Settings}
    (hparameters : env.parametersField = .ok parameters) (hwrites : env.writesField = .ok writes)
    (hcheck : Settings.checkMembers (env.textFields ++ parameters ++ writes) = .ok s) : env.settings = .ok s := by
  simp only [settings, hparameters, hwrites, bind, Except.bind, hcheck]
  rfl

/-- **Settings have the fields that variables give**, and the usual ones where a variable is not there. -/
theorem settings_eq_ok {parameters? : Option Scope} {writes? : Option { n : Nat // 1 ≤ n }}
    (hparameters : env.parametersField = .ok (Value.membersOf [("parameters", parameters?.map Scope.toJson)]))
    (hwrites : env.writesField = .ok (Value.membersOf [("max_parallel_writes", writes?.map fun n => .int n.val)])) :
    let usual : Settings := {}
    env.settings = .ok {
      projectPath := ((env.get? "MODULEGEN_PROJECT_PATH").map .ofString).getD usual.projectPath
      targetPath := (env.get? "MODULEGEN_TARGET_PATH").getD usual.targetPath
      templatesDir := ((env.get? "MODULEGEN_TEMPLATES_DIR").map .ofString).getD usual.templatesDir
      inputPath := ((env.get? "MODULEGEN_INPUT_PATH").map .ofString).getD usual.inputPath
      parameters := parameters?.getD usual.parameters
      manifestPath := (env.get? "MODULEGEN_MANIFEST_PATH").map .ofString
      maxParallelWrites := writes?.getD usual.maxParallelWrites } := by
  intro usual
  have hfields : env.textFields ++ Value.membersOf [("parameters", parameters?.map Scope.toJson)] ++
      Value.membersOf [("max_parallel_writes", writes?.map fun n => .int n.val)] =
      Value.membersOf (env.fields parameters? writes?) := by
    rw [textFields_eq, List.append_assoc, ← Value.membersOf_append, ← Value.membersOf_append]
    rfl
  have hmember := member?_fields env parameters? writes?
  have hpath : ∀ s, Path.check (.string s) = .ok (.ofString s) := fun _ => rfl
  have htext : ∀ s, Check.text (.string s) = .ok s := fun _ => rfl
  have hmanifest : ∀ s, Check.nullable Path.check (.string s) = .ok (some (.ofString s)) := fun _ => rfl
  have hatLeast : ∀ n : { n : Nat // 1 ≤ n }, Check.atLeast 1 (.int n.val) = .ok n := fun n => by
    simp [Check.atLeast, Check.integer, n.2]
  have hsome : ∀ s? : Option String, (s?.map fun s => some (Path.ofString s)).getD none = s?.map .ofString := by
    intro s?
    cases s? <;> rfl
  apply settings_of_checkMembers hparameters hwrites
  -- every field passes its check with what is given for it; no variable gives the two flags
  rw [hfields, Settings.checkMembers]
  dsimp only
  rw [Check.optional_of_member? hpath (hmember "project_path"),
    Check.optional_of_member? htext (hmember "target_path"),
    Check.optional_of_member? hpath (hmember "templates_dir"),
    Check.optional_of_member? hpath (hmember "input_path"),
    Check.optional_of_member? Scope.check_toJson (hmember "parameters"),
    Check.optional_of_member? hmanifest (hmember "manifest_path"),
    Check.optional_of_none (hmember "allow_existing"),
    Check.optional_of_none (hmember "dry_run"),
    Check.optional_of_member? hatLeast (hmember "max_parallel_writes"), hsome]
  simp only [Option.map_id']
  rfl

/-- The variables that are looked at. -/
def names : List String := textVariables.map Prod.fst ++ ["MODULEGEN_PARAMETERS", "MODULEGEN_MAX_PARALLEL_WRITES"]

/-- Environments with the same value for each variable that is looked at; an empty value is none. -/
def Alike (env env' : Environment) : Prop := ∀ name ∈ names, env.get? name = env'.get? name

instance (env env' : Environment) : Decidable (Alike env env') := by
  unfold Alike
  exact inferInstance

/-- **Alike environments give the same settings.** -/
theorem Alike.settings_eq (h : Alike env env') : env.settings = env'.settings := by
  have htexts : env.textFields = env'.textFields := by
    refine List.filterMap_congr fun v hv => ?_
    rw [h v.1 (List.mem_append_left _ (List.mem_map_of_mem hv))]
  have hparameters : env.parametersField = env'.parametersField := by
    rw [parametersField, h "MODULEGEN_PARAMETERS" (by decide)]
    rfl
  have hwrites : env.writesField = env'.writesField := by
    rw [writesField, h "MODULEGEN_MAX_PARALLEL_WRITES" (by decide)]
    rfl
  rw [settings, settings, htexts, hparameters, hwrites]

theorem get?_eq_some {name v : String} (h : Entries.get? name env = some v) (hv : v ≠ "") : env.get? name = some v := by
  rw [get?, h, Option.filter_some, if_pos (decide_eq_true hv)]

/-- Where the usual value is empty, an empty value is not swallowed. -/
theorem getD_get? {name v : String} (h : Entries.get? name env = some v) : (env.get? name).getD "" = v := by
  by_cases hv : v = ""
  · rw [get?, h, hv]
    rfl
  · rw [get?_eq_some h hv, Option.getD_some]

/-! ## Parameters alone -/

theorem parametersField_of_flatText {raw : String} {es : List (String × String)}
    (hraw : Entries.get? "MODULEGEN_PARAMETERS" env = some raw) (h : FlatText raw.toList es) :
    env.parametersField = .ok [("parameters", (Scope.ofList es).toJson)] := by
  have hne : raw ≠ "" := fun hempty => h.ne_nil (by rw [hempty]; rfl)
  rw [parametersField, get?_eq_some hraw hne]
  simp only [parse_lenient_of_flatText h]

/-- **Parameters mean the same in the environment and on the command line.** Where a text is accepted as parameters on
    the command line, an environment that has this text, and no other of the variables that are looked at, gives
    settings with these parameters: of each name the first position and the last value. -/
theorem settings_of_ofJsonText {raw : String} {s : Scope} (h : Scope.ofJsonText raw = .ok s)
    (henv : env.Alike [("MODULEGEN_PARAMETERS", raw)]) :
    env.settings = .ok { parameters := s } ∧ ∃ es, FlatText raw.toList es ∧ s.entries = Entries.collapse es := by
  obtain ⟨es, htext, rfl⟩ := Scope.ofJson?_eq_some_iff.mp (Scope.ofJsonText_eq_ok_iff.mp h)
  refine ⟨?_, es, htext, rfl⟩
  let alone : Environment := [("MODULEGEN_PARAMETERS", raw)]
  have hparameters : alone.parametersField =
      .ok (Value.membersOf [("parameters", (some (Scope.ofList es)).map Scope.toJson)]) :=
    parametersField_of_flatText rfl htext
  have hwrites : alone.writesField =
      .ok (Value.membersOf [("max_parallel_writes", (none : Option { n : Nat // 1 ≤ n }).map fun n => .int n.val)]) :=
    rfl
  rw [henv.settings_eq, settings_eq_ok hparameters hwrites]
  rfl

/-- White space, escapes, a surrogate pair and a name that comes again, beside a variable that is empty and one that is
    not looked at. -/
theorem settings_of_ofJsonText_repeated :
    let raw := " \x7b\"A\": \"b\\u00e9\",\t\"B\" :\"\\ud83d\\ude00\\/\", \"\\u0041\": \"c\"\x7d\n"
    let s : Scope := .ofList [("A", "c"), ("B", "😀/")]
    let env : Environment :=
      [("PATH", "/bin"), ("MODULEGEN_TARGET_PATH", ""), ("MODULEGEN_PARAMETERS", raw)]
    Scope.ofJsonText raw = .ok s ∧ env.Alike [("MODULEGEN_PARAMETERS", raw)] ∧
      env.settings = .ok { parameters := s } := by
  intro raw s env
  have hread : Scope.ofJsonText raw = .ok s := by decide +kernel
  have halike : env.Alike [("MODULEGEN_PARAMETERS", raw)] := by decide +kernel
  exact ⟨hread, halike, (settings_of_ofJsonText hread halike).1⟩

end Environment

/-! ## All fields -/

/-- The variables that express settings whose parameters are written as `raw`. -/
def Settings.variables (s : Settings) (raw : String) : Environment :=
  [("MODULEGEN_PROJECT_PATH", s.projectPath.text), ("MODULEGEN_TARGET_PATH", s.targetPath),
    ("MODULEGEN_TEMPLATES_DIR", s.templatesDir.text), ("MODULEGEN_INPUT_PATH", s.inputPath.text),
    ("MODULEGEN_PARAMETERS", raw), ("MODULEGEN_MAX_PARALLEL_WRITES", toString s.maxParallelWrites.val)] ++
    (s.manifestPath.map fun p => ("MODULEGEN_MANIFEST_PATH", p.text)).toList

namespace Environment

variable {env : Environment}

theorem writesField_of_toString {n : Nat}
    (h : Entries.get? "MODULEGEN_MAX_PARALLEL_WRITES" env = some (toString n)) :
    env.writesField = if n < 10 ^ maxDigits then .ok [("max_parallel_writes", .int n)]
      else .error (.numeral (toString n) (.tooLong (Nat.toDigits 10 n).length)) := by
  have hdigits : (toString n).toList = Nat.toDigits 10 n := Nat.toList_repr
  have hne : toString n ≠ "" := by
    intro hempty
    rw [hempty] at hdigits
    exact Nat.toDigits_ne_nil hdigits.symm
  rw [writesField, get?_eq_some h hne]
  simp only [hdigits, integer_toDigits]
  by_cases hn : n < 10 ^ maxDigits
  · rw [if_pos hn, if_pos hn]
  · rw [if_neg hn, if_neg hn]

/-- What variables that express settings give: the settings without their flags, unless the number of writes has too
    many digits. -/
theorem settings_of_alike_variables {s : Settings} {raw : String} (hraw : FlatText raw.toList s.parameters.entries)
    (henv : env.Alike (s.variables raw)) :
    env.settings =
      if s.maxParallelWrites.val < 10 ^ maxDigits then .ok { s with allowExisting := false, dryRun := false }
      else .error (.numeral (toString s.maxParallelWrites.val)
        (.tooLong (Nat.toDigits 10 s.maxParallelWrites.val).length)) := by
  -- no path has an empty text, so none of the values but that of the target path can be empty
  have hproject : get? (s.variables raw) "MODULEGEN_PROJECT_PATH" = some s.projectPath.text :=
    get?_eq_some rfl s.projectPath.text_ne_empty
  have htarget : (get? (s.variables raw) "MODULEGEN_TARGET_PATH").getD "" = s.targetPath := getD_get? rfl
  have htemplates : get? (s.variables raw) "MODULEGEN_TEMPLATES_DIR" = some s.templatesDir.text :=
    get?_eq_some rfl s.templatesDir.text_ne_empty
  have hinput : get? (s.variables raw) "MODULEGEN_INPUT_PATH" = some s.inputPath.text :=
    get?_eq_some rfl s.inputPath.text_ne_empty
  have hmanifest : (get? (s.variables raw) "MODULEGEN_MANIFEST_PATH").map .ofString = s.manifestPath := by
    have hfound : Entries.get? "MODULEGEN_MANIFEST_PATH" (s.variables raw) = s.manifestPath.map Path.text := by
      rw [Settings.variables]
      cases s.manifestPath <;> rfl
    cases hpath : s.manifestPath with
    | none =>
      rw [get?, hfound, hpath]
      rfl
    | some p =>
      rw [hpath] at hfound
      rw [get?_eq_some hfound p.text_ne_empty, Option.map_some, Path.ofString_text]
  have hparameters : parametersField (s.variables raw) =
      .ok (Value.membersOf [("parameters", (some s.parameters).map Scope.toJson)]) := by
    rw [parametersField_of_flatText rfl hraw, Scope.ofList_entries]
    rfl
  have hwrites : writesField (s.variables raw) =
      if s.maxParallelWrites.val < 10 ^ maxDigits then
        .ok (Value.membersOf [("max_parallel_writes", (some s.maxParallelWrites).map fun n => .int n.val)])
      else .error (.numeral (toString s.maxParallelWrites.val)
        (.tooLong (Nat.toDigits 10 s.maxParallelWrites.val).length)) := writesField_of_toString rfl
  rw [henv.settings_eq]
  by_cases hn : s.maxParallelWrites.val < 10 ^ maxDigits
  · rw [if_pos hn] at hwrites ⊢
    rw [settings_eq_ok hparameters hwrites, hproject, htarget, htemplates, hinput, hmanifest]
    simp only [Option.map_some, Option.getD_some, Path.ofString_text]
  · rw [if_neg hn] at hwrites ⊢
    rw [settings, hparameters, hwrites]
    rfl

/-- **Settings are passed through the environment**, if neither flag is set and the number of writes has no more digits
    than are read. The parameters may be written as any object with their names and values in this order, as their
    printed forms are. -/
theorem settings_variables {s : Settings} (hexisting : s.allowExisting = false) (hdry : s.dryRun = false)
    (hwrites : s.maxParallelWrites.val < 10 ^ maxDigits) :
    (∀ raw env, FlatText raw.toList s.parameters.entries → Alike env (s.variables raw) → settings env = .ok s) ∧
      ∀ style, settings (s.variables (s.parameters.toJson.text style)) = .ok s := by
  have hflags : { s with allowExisting := false, dryRun := false } = s := by
    cases s
    simp_all
  have hall : ∀ raw env, FlatText raw.toList s.parameters.entries → Alike env (s.variables raw) →
      settings env = .ok s := by
    intro raw env hraw henv
    rw [settings_of_alike_variables hraw henv, if_pos hwrites, hflags]
  refine ⟨hall, fun style => ?_⟩
  apply hall _ _ (flatText_text s.parameters style)
  exact fun _ _ => rfl

/-- Settings without a target path and with a manifest path, and parameters written in ASCII with a line break between
    them. -/
theorem settings_variables_awkward :
    let s : Settings := {
      projectPath := .ofString "/a b/é.xcodeproj"
      parameters := .ofList [("é", "😀\n\""), ("A", "")]
      manifestPath := some (.ofString "m/../x.json")
      maxParallelWrites := ⟨120, by decide⟩ }
    let raw := "\x7b\"\\u00e9\": \"\\ud83d\\ude00\\n\\\"\",\n\"A\": \"\"\x7d"
    s.allowExisting = false ∧ s.dryRun = false ∧ s.maxParallelWrites.val < 10 ^ maxDigits ∧
      FlatText raw.toList s.parameters.entries ∧ Alike (("PATH", "/bin") :: s.variables raw) (s.variables raw) ∧
      settings (("PATH", "/bin") :: s.variables raw) = .ok s := by
  intro s raw
  have hwrites : s.maxParallelWrites.val < 10 ^ maxDigits :=
    Nat.lt_of_lt_of_le (show 120 < 10 ^ 3 by decide) (Nat.pow_le_pow_right (by decide) (by decide))
  have hraw : FlatText raw.toList s.parameters.entries := by decide +kernel
  have halike : Alike (("PATH", "/bin") :: s.variables raw) (s.variables raw) := by decide +kernel
  exact ⟨rfl, rfl, hwrites, hraw, halike, (settings_variables rfl rfl hwrites).1 raw _ hraw halike⟩

/-- A number of writes with one digit too many is not passed. -/
theorem not_settings_variables_many_digits :
    let s : Settings := { maxParallelWrites := ⟨10 ^ maxDigits, Nat.one_le_pow _ _ (by decide)⟩ }
    s.allowExisting = false ∧ s.dryRun = false ∧ FlatText "\x7b\x7d".toList s.parameters.entries ∧
      settings (s.variables "\x7b\x7d") ≠ .ok s := by
  intro s
  have hraw : FlatText "\x7b\x7d".toList [] := by decide +kernel
  refine ⟨rfl, rfl, hraw, ?_⟩
  intro hread
  rw [settings_of_alike_variables hraw (fun _ _ => rfl), if_neg (Nat.lt_irrefl _)] at hread
  cases hread

end Environment

end Stencil
