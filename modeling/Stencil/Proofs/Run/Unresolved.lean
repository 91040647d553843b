import Stencil.Proofs.Run.Makes
import Stencil.Proofs.Template.Stages

/-!
# `Stencil.Proofs.Run.Unresolved` — the keys without a value

## Contents
- **Look-up.** `Report.keysAt` gives the keys that a report has for a file. Where reports are put together, the later
  one counts.
- **Accounts.** What a report says of files is about files that it lists, and begins with the keys of their names
  (`Generator.Accounts`); so it is with every report of a run (`performAll_accounts`).
- **What is reported.** For a file that alone has its path, the keys are those that are found in its content after
  completion (`keysAt_of_generate`). If the values that went into it are safe, these are the keys of its template that
  have no value. If they are not, a key can be reported that has one (`keysAt_defined`).
-/

namespace Stencil

open Text

/-! ## Look-up -/

namespace Report

variable {p : Path} {r r' : Report}

/-- The keys that a report has for a file; none if it says nothing of the file. -/
def keysAt (r : Report) (p : Path) : List String := (Entries.get? p.text r.unresolved).getD []

theorem get?_ofFile (p : Path) (ks : List String) (k : String) :
    Entries.get? k (ofFile p ks).unresolved = if ks ≠ [] ∧ p.text = k then some ks else none := by
  cases ks with
  | nil => rfl
  | cons key ks => simp [ofFile, Entries.get?]

/-- Of two reports that are put together the later one counts. -/
theorem get?_extend (h : (Entries.keys r'.unresolved).Nodup) (k : String) :
    Entries.get? k (r.extend r').unresolved = (Entries.get? k r'.unresolved).or (Entries.get? k r.unresolved) :=
  Entries.get?_merge h k r.unresolved

theorem keysAt_ofFile (p : Path) (ks : List String) : (ofFile p ks).keysAt p = ks := by
  rw [keysAt, get?_ofFile]
  cases ks <;> simp

/-- A report that says nothing of a file does not count for it. -/
theorem keysAt_extend_left (h : (Entries.keys r'.unresolved).Nodup)
    (hnone : Entries.get? p.text r.unresolved = none) : (r.extend r').keysAt p = r'.keysAt p := by
  rw [keysAt, get?_extend h, hnone, Option.or_none, keysAt]

theorem keysAt_extend_right (h : (Entries.keys r'.unresolved).Nodup)
    (hnone : Entries.get? p.text r'.unresolved = none) : (r.extend r').keysAt p = r.keysAt p := by
  rw [keysAt, get?_extend h, hnone, Option.none_or, keysAt]

end Report

/-! ## Accounts -/

namespace Generator

variable {g : Generator} {r r' : Report} {p : Path}

/-- What a report says of files. Each of its entries is about a file that it lists, has keys, and begins with those of
    the name of that file; for show there are no others. A file with keys in its name has an entry. -/
structure Accounts (g : Generator) (r : Report) : Prop where
  entry : ∀ k ks, Entries.get? k r.unresolved = some ks → ∃ p ∈ r.files, p.text = k ∧ ks ≠ [] ∧
    Placeholder.keys p.name <+: ks ∧ (g.settings.dryRun = true → ks = Placeholder.keys p.name)
  named : ∀ p ∈ r.files, Placeholder.keys p.name ≠ [] → Entries.get? p.text r.unresolved ≠ none

/-- Where there are no files, nothing is said of any. -/
theorem accounts_of_no_files (hfiles : r.files = []) (hnone : r.unresolved = []) : g.Accounts r := by
  constructor
  · intro k ks hk
    rw [hnone] at hk
    cases hk
  · intro p hp
    rw [hfiles] at hp
    cases hp

theorem accounts_ofFile {ks : List String} (hname : Placeholder.keys p.name <+: ks)
    (hdry : g.settings.dryRun = true → ks = Placeholder.keys p.name) : g.Accounts (.ofFile p ks) := by
  constructor
  · intro k ks' h
    rw [Report.get?_ofFile] at h
    split at h
    · next hk =>
      cases h
      exact ⟨p, by simp [Report.ofFile], hk.2, hk.1, hname, hdry⟩
    · cases h
  · intro q hq hkeys
    obtain rfl : q = p := by simpa [Report.ofFile] using hq
    have hne : ks ≠ [] := by
      rintro rfl
      exact hkeys (List.prefix_nil.mp hname)
    rw [Report.get?_ofFile, if_pos ⟨hne, rfl⟩]
    simp

/-- Reports that account for their files do so when they are put together. -/
theorem Accounts.extend (h : g.Accounts r) (h' : g.Accounts r') (hproper : (Entries.keys r'.unresolved).Nodup) :
    g.Accounts (r.extend r') := by
  constructor
  · intro k ks hk
    rw [Report.get?_extend hproper, Option.or_eq_some_iff] at hk
    rcases hk with hk | ⟨-, hk⟩
    · obtain ⟨p, hp, hentry⟩ := h'.entry k ks hk
      exact ⟨p, List.mem_append_right _ hp, hentry⟩
    · obtain ⟨p, hp, hentry⟩ := h.entry k ks hk
      exact ⟨p, List.mem_append_left _ hp, hentry⟩
  · intro p hp hkeys
    rw [Report.get?_extend hproper, ne_eq, Option.or_eq_none_iff, not_and_or]
    rcases List.mem_append.mp hp with hp | hp
    · exact .inr (h.named p hp hkeys)
    · exact .inl (h'.named p hp hkeys)

/-- Nothing is said of what is not among the files. -/
theorem Accounts.get?_eq_none (h : g.Accounts r) (hp : p ∉ r.files) : Entries.get? p.text r.unresolved = none := by
  by_contra hsome
  obtain ⟨ks, hks⟩ := Option.ne_none_iff_exists'.mp hsome
  obtain ⟨q, hq, htext, -⟩ := h.entry _ _ hks
  exact hp (Path.text_inj.mp htext ▸ hq)

theorem perform_accounts (g : Generator) (t : Task) : (g.perform t).Yields g.Accounts := by
  cases t with
  | folder parent name => exact (Job.yields_true _).bind fun path _ => Job.yields_pure (accounts_of_no_files rfl rfl)
  | file folder f =>
    rw [perform, makeFile]
    dsimp only
    split
    · exact Job.yields_pure (accounts_ofFile (List.prefix_refl _) fun _ => rfl)
    · next hdry =>
      refine (Job.yields_true _).bind fun _ _ => (Job.yields_true _).bind fun _ _ => ?_
      refine (Job.yields_true _).bind fun _ _ => Job.yields_pure ?_
      exact accounts_ofFile (List.prefix_append _ _) fun h => absurd h hdry

/-- **Every report of a run accounts for its files.** -/
theorem performAll_accounts (g : Generator) (ts : List Task) : (g.performAll ts).Yields g.Accounts := by
  induction ts with
  | nil => exact Job.yields_pure (accounts_of_no_files rfl rfl)
  | cons t ts ih =>
    have hothers := (g.performAll_yields ts).and ih
    exact (g.perform_accounts t).bind fun r hr => hothers.bind fun r' hr' =>
      Job.yields_pure (hr.extend hr'.2 hr'.1.proper)

end Generator

/-! ## What is reported -/

/-- Whether a key has a value for a file: among its own parameters or among those of the run. -/
def Settings.Defines (s : Settings) (f : File) (key : String) : Prop :=
  ((f.parameters.getD .empty).get? key).isSome = true ∨ (s.parameters.get? key).isSome = true

instance (s : Settings) (f : File) (key : String) : Decidable (s.Defines f key) :=
  inferInstanceAs (Decidable (_ ∨ _))

theorem Settings.mem_keys_scopeOf_iff {s : Settings} {f : File} {key : String} :
    key ∈ Entries.keys (s.scopeOf f).entries ↔ s.Defines f key := by
  have hmerged : (s.scopeOf f).get? key = ((f.parameters.getD .empty).get? key).or (s.parameters.get? key) :=
    Scope.get?_merged (f.parameters.getD .empty) s.parameters key
  have hkey : key ∈ Entries.keys (s.scopeOf f).entries ↔ ((s.scopeOf f).get? key).isSome = true := by
    rw [Option.isSome_iff_ne_none, Scope.get?, ne_eq, Entries.get?_eq_none_iff, not_not]
  rw [hkey, hmerged, Option.isSome_or, Bool.or_eq_true, Defines]

namespace Generator

variable {g : Generator} {o : Outline} {st st' : RunState} {r : Report} {p : Path} {f : File} {body : String}

/-- The template of a file as a run finds it when it comes to that file. -/
def Finds (g : Generator) (o : Outline) (st : RunState) (p : Path) (f : File) (body : String) : Prop :=
  ∃ done folder rest r mid, g.settings.plan o = done ++ .file folder f :: rest ∧ folder / g.settings.fileName f = p ∧
    Job.exec (g.performAll done) st = (.ok r, mid) ∧ g.settings.body? mid.disk f = some body

/-- A run says nothing of a path at which it makes no file. -/
theorem get?_eq_none_of_performAll {ts : List Task} (h : Job.exec (g.performAll ts) st = (.ok r, st'))
    (hp : ∀ e ∈ ts.filterMap g.settings.fileOf?, e.1 ≠ p) : Entries.get? p.text r.unresolved = none := by
  refine (g.performAll_accounts ts st r st' h).get?_eq_none ?_
  rw [(g.performAll_yields ts st r st' h).files]
  rintro hmem
  obtain ⟨e, he, rfl⟩ := List.mem_map.mp hmem
  exact hp e he rfl

/-- **What is reported of a file.** Let a file alone have its path, and let there be no underscore in its name. Then
    the keys that a successful run reports of it are those that are found in its content, the completed template. If no
    value in its scope holds the underscores of a placeholder or lends one to what stands beside it, these are the keys
    of the template that have no value, in order. -/
theorem keysAt_of_generate {before after : List (Path × File)} (hdry : g.settings.dryRun = false)
    (hrun : Job.exec (g.generate o) st = (.ok r, st')) (hfile : g.settings.filesOf o = before ++ (p, f) :: after)
    (honly : ∀ e ∈ before ++ after, e.1 ≠ p) (hname : '_' ∉ p.name.toList) :
    ∃ body, g.Finds o st p f body ∧
      r.keysAt p = Placeholder.keys (Placeholder.fill (g.settings.scopeOf f) body) ∧
      ((g.settings.scopeOf f).IsSafe →
        r.keysAt p = (Placeholder.keys body).filter fun key => ¬ g.settings.Defines f key) := by
  rw [generate_eq_performAll] at hrun
  rw [← Settings.filterMap_fileOf?_plan] at hfile
  obtain ⟨done, folder, rest, hplan, hpath, hdone, hrest⟩ := Settings.exists_cut hfile
  rw [hplan] at hrun
  obtain ⟨r₁, mid, r₂, hfirst, hsecond, rfl⟩ := g.exec_performAll_append_eq_ok hrun
  obtain ⟨own, s₂, others, hown, hothers, rfl⟩ := g.exec_performAll_cons_eq_ok_iff.mp hsecond
  obtain ⟨body, s₁, htemplate, -, -, hreport⟩ := exec_makeFile_eq_ok hdry hown
  have hfound := (exec_template_eq_ok htemplate).2
  -- neither what was done before nor what was done afterwards says anything of the file
  have hbefore : Entries.get? p.text r₁.unresolved = none :=
    get?_eq_none_of_performAll hfirst fun e he => honly e (List.mem_append_left _ (hdone ▸ he))
  have hafter : Entries.get? p.text others.unresolved = none :=
    get?_eq_none_of_performAll hothers fun e he => honly e (List.mem_append_right _ (hrest ▸ he))
  have hproper := (g.performAll_yields rest _ _ _ hothers).proper
  have hproper' := (g.performAll_yields _ _ _ _ hsecond).proper
  have hname : Placeholder.keys p.name = [] := by rw [Placeholder.keys, Placeholder.keysOf_eq_nil hname, List.map_nil]
  have hkeys : (r₁.extend (own.extend others)).keysAt p =
      Placeholder.keys (Placeholder.fill (g.settings.scopeOf f) body) := by
    rw [Report.keysAt_extend_left hproper' hbefore, Report.keysAt_extend_right hproper hafter, hreport, hpath,
      Report.keysAt_ofFile, hname, List.nil_append]
  refine ⟨body, ⟨done, folder, rest, r₁, mid, hplan, hpath, hfirst, hfound⟩, hkeys, fun hsafe => ?_⟩
  rw [hkeys, Placeholder.keys_fill hsafe]
  exact List.filter_congr fun key _ => by simp only [Settings.mem_keys_scopeOf_iff]

/-- A file whose template has a key of its own, a key of the run and an open one, beside another file. -/
theorem keysAt_of_generate_open_key :
    let s : Settings := { templatesDir := .ofString "t", parameters := .ofList [("B", "y")] }
    let x : File := { templateId := "T", name := "x", parameters := some (.ofList [("A", "v")]) }
    let o : Outline := { folders := [.mk "R" [x, { name := "z" }] []] }
    let st : RunState :=
      { disk := { entries := [(["t"], .folder), (["t", "T"], .file (Utf8.encode "___A___ ___Z___ ___B___".toList))] } }
    ∃ r st', Job.exec (generate { settings := s } o) st = (.ok r, st') ∧
      ∃ body, Finds { settings := s } o st (.ofString "R/x") x body ∧
        r.keysAt (.ofString "R/x") = (Placeholder.keys body).filter fun key => ¬ s.Defines x key := by
  intro s x o st
  have hsafe : (s.scopeOf x).IsSafe := ⟨by decide +kernel, by decide +kernel, by decide +kernel⟩
  have hfile : s.filesOf o = [] ++ (.ofString "R/x", x) :: [(.ofString "R/z", { name := "z" })] := by
    clear hsafe
    decide +kernel +revert
  have honly : ∀ e ∈ [] ++ [((.ofString "R/z", { name := "z" }) : Path × File)], e.1 ≠ .ofString "R/x" := by
    clear hsafe hfile
    decide +kernel +revert
  have hok : (Job.exec (generate { settings := s } o) st).1.toOption.isSome = true := by
    clear hsafe hfile honly
    decide +kernel +revert
  obtain ⟨r, st', hrun⟩ := Job.exec_eq_ok_of_isSome hok
  obtain ⟨body, hfinds, -, hkeys⟩ := keysAt_of_generate rfl hrun hfile honly (by decide +kernel)
  exact ⟨r, st', hrun, body, hfinds, hkeys hsafe⟩

/-- **A key can be reported that has a value**, if a value that is put in looks like its placeholder: the template has
    no such key, and values are not completed themselves. -/
theorem keysAt_defined :
    let s : Settings := { templatesDir := .ofString "t", parameters := .ofList [("A", "___B___"), ("B", "y")] }
    let x : File := { templateId := "T", name := "x" }
    let o : Outline := { folders := [.mk "R" [x] []] }
    let st : RunState :=
      { disk := { entries := [(["t"], .folder), (["t", "T"], .file (Utf8.encode "___A___".toList))] } }
    ∃ r, (Job.exec (generate { settings := s } o) st).1 = .ok r ∧ r.keysAt (.ofString "R/x") = ["B"] ∧
      s.Defines x "A" ∧ s.Defines x "B" := by
  intro s x o st
  refine ⟨{ folders := [.ofString "R"], files := [.ofString "R/x"], unresolved := [("R/x", ["B"])] }, ?_, ?_⟩
  · decide +kernel +revert
  · decide +kernel +revert

end Generator

end Stencil
