import Mathlib.Data.Bool.AllAny
import Stencil.Proofs.Outline.Document
import Stencil.Proofs.Outline.WrittenLine

/-!
# `Stencil.Proofs.Outline.Written` — reading back what was written

## Contents
- **Order.** `Arranged` says in which order the lines of folders and files may stand: a folder before what
  is in it, the whole of a subfolder together, files and subfolders otherwise in any interleaving.
- **Building.** What the builder makes of lines so arranged, wherever it starts (`Receives.of_arranged`).
- **Reading.** A forest that is written out and read back is the same forest (`ofText_of_written`).
-/

namespace Stencil

open Text

/-! ## Order -/

section Order

variable {α β : Type}

/-- The lines of files and folders that are all at one depth, the folders with what is in them. Files stay
    in order among themselves, and so do folders. -/
inductive Arranged (file : Nat → File → α → Prop) (folder : Nat → String → α → Prop) :
    Nat → List File → List Folder → List α → Prop
  | nil {depth : Nat} : Arranged file folder depth [] [] []
  | file {depth : Nat} {f : File} {files : List File} {folders : List Folder} {a : α} {ls : List α}
      (hf : file depth f a) (h : Arranged file folder depth files folders ls) :
      Arranged file folder depth (f :: files) folders (a :: ls)
  | folder {depth : Nat} {name : String} {inFiles files : List File} {inFolders folders : List Folder} {a : α}
      {inside ls : List α} (hf : folder depth name a)
      (hin : Arranged file folder (depth + 1) inFiles inFolders inside)
      (h : Arranged file folder depth files folders ls) :
      Arranged file folder depth files (.mk name inFiles inFolders :: folders) (a :: (inside ++ ls))

namespace Folder

mutual

/-- A folder that can be written on lines. -/
def IsWritable : Folder → Prop
  | .mk name files folders => IsPlainName name ∧ (∀ f ∈ files, f.IsWritable) ∧ AreWritable folders

/-- Folders that can be written on lines. -/
def AreWritable : List Folder → Prop
  | [] => True
  | f :: fs => IsWritable f ∧ AreWritable fs

end

end Folder

variable {file : Nat → File → α → Prop} {folder : Nat → String → α → Prop}
  {file' : Nat → File → β → Prop} {folder' : Nat → String → β → Prop}

/-- Lines may be replaced one by one. -/
theorem Arranged.map {g : α → β} {depth : Nat} {files : List File} {folders : List Folder} {ls : List α}
    (hfile : ∀ depth f a, f.IsWritable → file depth f a → file' depth f (g a))
    (hfolder : ∀ depth name a, IsPlainName name → folder depth name a → folder' depth name (g a))
    (h : Arranged file folder depth files folders ls) (hfiles : ∀ f ∈ files, f.IsWritable)
    (hfolders : Folder.AreWritable folders) : Arranged file' folder' depth files folders (ls.map g) := by
  induction h with
  | nil => exact .nil
  | file hf h ih =>
    have hin := ih (fun f hm => hfiles f (List.mem_cons_of_mem _ hm)) hfolders
    exact .file (hfile _ _ _ (hfiles _ List.mem_cons_self) hf) hin
  | folder hf hin h ihin ih =>
    obtain ⟨⟨hname, hinFiles, hinFolders⟩, hrest⟩ := hfolders
    rw [List.map_cons, List.map_append]
    exact .folder (hfolder _ _ _ hname hf) (ihin hinFiles hinFolders) (ih hfiles hrest)

/-- What holds of every line that is written for a file or a folder holds of all lines. -/
theorem Arranged.forall_mem {p : α → Prop} {depth : Nat} {files : List File} {folders : List Folder} {ls : List α}
    (hfile : ∀ depth f a, f.IsWritable → file depth f a → p a)
    (hfolder : ∀ depth name a, IsPlainName name → folder depth name a → p a)
    (h : Arranged file folder depth files folders ls) (hfiles : ∀ f ∈ files, f.IsWritable)
    (hfolders : Folder.AreWritable folders) : ∀ a ∈ ls, p a := by
  induction h with
  | nil => simp
  | file hf h ih =>
    have hin := ih (fun f hm => hfiles f (List.mem_cons_of_mem _ hm)) hfolders
    exact List.forall_mem_cons.mpr ⟨hfile _ _ _ (hfiles _ List.mem_cons_self) hf, hin⟩
  | folder hf hin h ihin ih =>
    obtain ⟨⟨hname, hinFiles, hinFolders⟩, hrest⟩ := hfolders
    refine List.forall_mem_cons.mpr ⟨hfolder _ _ _ hname hf, ?_⟩
    exact List.forall_mem_append.mpr ⟨ihin hinFiles hinFolders, ih hfiles hrest⟩

end Order

/-! ## Building -/

/-- A draft with files and subfolders put at its end; the first subfolder has the given number. -/
def Draft.attachAll (d : Draft) (files : List File) (number : Nat) (folders : List Folder) : Draft :=
  { d with files := d.files ++ files, children := d.children ++ Folder.heads number folders }

theorem modify_append_left {α : Type} {f : α → α} {as : List α} {p : Nat} (h : p < as.length) (bs : List α) :
    (as ++ bs).modify p f = as.modify p f ++ bs := by
  induction as generalizing p with
  | nil => simp at h
  | cons a as ih =>
    cases p with
    | zero => rfl
    | succ p => simp [ih (by simpa using h)]

theorem modify_append_length {α : Type} (f : α → α) (as : List α) (b : α) (bs : List α) :
    (as ++ b :: bs).modify as.length f = as ++ f b :: bs := by
  induction as with
  | nil => rfl
  | cons a as ih => simp [ih]

namespace Folder

theorem heads_append (number : Nat) (fs gs : List Folder) :
    heads number (fs ++ gs) = heads number fs ++ heads (number + sizeAll fs) gs := by
  induction fs generalizing number with
  | nil => simp [heads, sizeAll]
  | cons f fs ih => simp [heads, sizeAll, ih, Nat.add_assoc]

theorem layoutAll_append (number : Nat) (fs gs : List Folder) :
    layoutAll number (fs ++ gs) = layoutAll number fs ++ layoutAll (number + sizeAll fs) gs := by
  induction fs generalizing number with
  | nil => simp [layoutAll, sizeAll]
  | cons f fs ih => simp [layoutAll, sizeAll, ih, Nat.add_assoc]

end Folder

namespace Builder

/-- The drafts when the draft with the number `place?`, if it is one, has received files and folders. -/
def received (place? : Option Nat) (files : List File) (folders : List Folder) (ds : List Draft) : List Draft :=
  (match place? with
    | none => ds
    | some p => ds.modify p fun d => d.attachAll files ds.length folders) ++
  Folder.layoutAll ds.length folders

section Received

variable {place? : Option Nat} {ds : List Draft}

@[simp] theorem length_received (files : List File) (folders : List Folder) :
    (received place? files folders ds).length = ds.length + Folder.sizeAll folders := by
  cases place? <;> simp [received]

theorem received_nil : received place? [] [] ds = ds := by
  cases place? with
  | none => simp [received, Folder.layoutAll]
  | some p =>
    have hid : (fun d : Draft => d.attachAll [] ds.length []) = id := by
      funext d
      simp [Draft.attachAll, Folder.heads]
    simp [received, Folder.layoutAll, hid]

/-- What is received in two parts is received in one. -/
theorem received_received (hplace : ∀ p ∈ place?, p < ds.length) (files files' : List File)
    (folders folders' : List Folder) :
    received place? files' folders' (received place? files folders ds) =
      received place? (files ++ files') (folders ++ folders') ds := by
  cases place? with
  | none => simp [received, Folder.layoutAll_append]
  | some p =>
    -- the draft that receives both parts is in front of all that is laid out
    have hp : p < (ds.modify p fun d => d.attachAll files ds.length folders).length := by
      simpa using hplace p rfl
    have htwice : ∀ m, ((fun d : Draft => d.attachAll files' (ds.length + m) folders') ∘
        fun d : Draft => d.attachAll files ds.length folders) =
        fun d : Draft => { d with
          files := d.files ++ (files ++ files')
          children := d.children ++
            (Folder.heads ds.length folders ++ Folder.heads (ds.length + m) folders') } := by
      intro m
      funext d
      simp [Draft.attachAll]
    have hlen : (received (some p) files folders ds).length = ds.length + Folder.sizeAll folders :=
      length_received files folders
    rw [received, hlen, received, modify_append_left hp, List.modify_modify_eq, htwice, List.append_assoc,
      ← Folder.layoutAll_append, ← Folder.heads_append]
    rfl

/-- What the folder received last receives itself is in it. -/
theorem received_last (name : String) (files : List File) (folders : List Folder) :
    received (some ds.length) files folders (received place? [] [.mk name [] []] ds) =
      received place? [] [.mk name files folders] ds := by
  -- in both cases the folders that were there take the new one for a child
  obtain ⟨as, hlen, hreceived⟩ : ∃ as : List Draft, as.length = ds.length ∧ ∀ files folders,
      received place? [] [.mk name files folders] ds =
        as ++ { name, files, children := Folder.heads (ds.length + 1) folders } ::
          Folder.layoutAll (ds.length + 1) folders := by
    cases place? with
    | none => exact ⟨ds, rfl, fun files folders => by simp [received, Folder.layoutAll, Folder.layout]⟩
    | some p =>
      refine ⟨ds.modify p fun d => d.attachAll [] ds.length [.mk name [] []], by simp, fun files folders => ?_⟩
      simp [received, Folder.layoutAll, Folder.layout, Draft.attachAll, Folder.heads]
  rw [hreceived, hreceived, received, ← hlen]
  simp [modify_append_length, Draft.attachAll, Folder.heads, Folder.layoutAll]

end Received

variable {b : Builder} {depth : Nat}

/-- What has become of a builder that received files and folders at a depth. -/
structure Receives (b b' : Builder) (depth : Nat) (files : List File) (folders : List Folder) : Prop where
  drafts : b'.drafts = received (b.enclosing? depth) files folders b.drafts
  roots : b'.roots = b.roots ++ if depth = 0 then Folder.heads b.drafts.length folders else []
  dropped : b'.dropped = b.dropped
  latest : ∀ above < depth, Entries.get? above b'.latest = Entries.get? above b.latest

/-- A builder that can receive files and folders at a depth: there is a draft that they go into. Files at
    depth 0 have no place. -/
structure Offers (b : Builder) (depth : Nat) (files : List File) : Prop where
  root : depth = 0 → files = []
  place : depth ≠ 0 → ∃ p, b.enclosing? depth = some p
  bound : ∀ p ∈ b.enclosing? depth, p < b.drafts.length

theorem enclosing?_eq_of_latest {b b' : Builder}
    (h : ∀ above < depth, Entries.get? above b'.latest = Entries.get? above b.latest) :
    b'.enclosing? depth = b.enclosing? depth := by
  cases depth with
  | zero => rfl
  | succ above => exact h above (Nat.lt_succ_self above)

/-- A place for some files is one for any files, below the roots. -/
theorem Offers.tail {f : File} {files : List File} (h : b.Offers depth (f :: files)) : b.Offers depth files :=
  ⟨fun h0 => absurd (h.root h0) (List.cons_ne_nil f files), h.place, h.bound⟩

/-- Receiving takes no place away. -/
theorem Receives.offers {b' : Builder} {files files' : List File} {folders : List Folder}
    (h : b.Receives b' depth files folders) (ho : b.Offers depth files') : b'.Offers depth files' := by
  have he := enclosing?_eq_of_latest h.latest
  refine ⟨ho.root, fun hd => ?_, fun p hp => ?_⟩
  · rw [he]
    exact ho.place hd
  · rw [he] at hp
    have := ho.bound p hp
    rw [h.drafts, length_received]
    omega

/-- What is received in two parts, one after the other. -/
theorem Receives.trans {b₁ b₂ : Builder} {files files₁ files₂ : List File} {folders₁ folders₂ : List Folder}
    (ho : b.Offers depth files) (h₁ : b.Receives b₁ depth files₁ folders₁)
    (h₂ : b₁.Receives b₂ depth files₂ folders₂) :
    b.Receives b₂ depth (files₁ ++ files₂) (folders₁ ++ folders₂) := by
  constructor
  · rw [h₂.drafts, enclosing?_eq_of_latest h₁.latest, h₁.drafts, received_received ho.bound]
  · rw [h₂.roots, h₁.roots, h₁.drafts, length_received, List.append_assoc]
    by_cases hd : depth = 0 <;> simp [hd, Folder.heads_append]
  · rw [h₂.dropped, h₁.dropped]
  · intro above hlt
    rw [h₂.latest above hlt, h₁.latest above hlt]

/-- A file line puts its file into the folder around it. -/
theorem receives_file {f : File} {files : List File} {line : Line} (ho : b.Offers depth (f :: files))
    (hl : ReadsAsFile depth f line) (number : Int) : b.Receives (b.add line number) depth [f] [] := by
  have hd : depth ≠ 0 := fun h0 => absurd (ho.root h0) (List.cons_ne_nil f files)
  obtain ⟨p, hp⟩ := ho.place hd
  rw [add_eq]
  refine ⟨?_, ?_, ?_, fun above hlt => ?_⟩
  · simp [attached, opened, hl.kind, hl.depth, hp, received, Draft.attach, Draft.attachAll, hl.file, Folder.heads,
      Folder.layoutAll]
  · simp [hl.kind, Folder.heads]
  · simp [hl.depth, hp]
  · simp [hl.kind]

/-- A folder line puts an empty folder into the folder around it, or to the roots. -/
theorem receives_folder {name : String} {files : List File} {line : Line} (ho : b.Offers depth files)
    (hl : ReadsAsFolder depth name line) (number : Int) :
    b.Receives (b.add line number) depth [] [.mk name [] []] := by
  rw [add_eq]
  refine ⟨?_, ?_, ?_, fun above hlt => ?_⟩
  · cases he : b.enclosing? depth with
    | none => simp [attached, opened, hl.kind, hl.depth, hl.name, he, received, Folder.layoutAll, Folder.layout,
        Folder.heads]
    | some p =>
      have hp : p < b.drafts.length := ho.bound p he
      simp [attached, opened, hl.kind, hl.depth, hl.name, he, received, Folder.layoutAll, Folder.layout,
        Folder.heads, modify_append_left hp, Draft.attach, Draft.attachAll]
  · simp [hl.kind, hl.depth, Folder.heads]
  · by_cases hd : depth = 0
    · simp [hl.kind, hl.depth, hd]
    · obtain ⟨p, hp⟩ := ho.place hd
      simp [hl.depth, hp]
  · have hne : depth ≠ above := by omega
    simp [hl.kind, hl.depth, Entries.get?_insert_of_ne hne]

/-- A folder line makes its folder the place for what is one level below. -/
theorem enclosing?_add_folder {name : String} {line : Line} (hl : ReadsAsFolder depth name line) (number : Int) :
    (b.add line number).enclosing? (depth + 1) = some b.drafts.length := by
  rw [add_eq]
  simp [enclosing?, hl.kind, hl.depth, Entries.get?_insert_self]

/-- What is received one level below a new folder is in that folder. -/
theorem Receives.inside {b₁ b₂ : Builder} {name : String} {files : List File} {folders : List Folder}
    (h₁ : b.Receives b₁ depth [] [.mk name [] []]) (he : b₁.enclosing? (depth + 1) = some b.drafts.length)
    (h₂ : b₁.Receives b₂ (depth + 1) files folders) : b.Receives b₂ depth [] [.mk name files folders] := by
  constructor
  · rw [h₂.drafts, he, h₁.drafts, received_last]
  · rw [h₂.roots, h₁.roots]
    simp [Folder.heads]
  · rw [h₂.dropped, h₁.dropped]
  · intro above hlt
    rw [h₂.latest above (by omega), h₁.latest above hlt]

/-- **A builder receives the files and folders whose lines it reads.** -/
theorem receives_of_arranged {files : List File} {folders : List Folder} {ls : List Line}
    (h : Arranged ReadsAsFile ReadsAsFolder depth files folders ls) {ns : List (Line × Int)}
    (hns : ns.map Prod.fst = ls) {b : Builder} (ho : b.Offers depth files) :
    b.Receives (b.addAll ns) depth files folders := by
  induction h generalizing ns b with
  | nil =>
    obtain rfl : ns = [] := List.map_eq_nil_iff.mp hns
    exact ⟨received_nil.symm, by simp [addAll, Folder.heads], rfl, fun _ _ => rfl⟩
  | @file depth f files folders line ls hf h ih =>
    obtain ⟨l, ns, rfl, rfl, hrest⟩ := List.map_eq_cons_iff.mp hns
    have hstep := receives_file ho hf l.2
    exact .trans ho hstep (ih hrest (hstep.offers ho.tail))
  | @folder depth name inFiles files inFolders folders line inside ls hf hin h ihin ih =>
    obtain ⟨l, ns, rfl, rfl, hrest⟩ := List.map_eq_cons_iff.mp hns
    obtain ⟨ns₁, ns₂, rfl, hinside, hrest⟩ := List.map_eq_append_iff.mp hrest
    have hstep := receives_folder ho hf l.2
    have he := b.enclosing?_add_folder hf l.2
    -- what is inside finds the new folder one level above, until all of it is read
    have hroom : (b.add l.1 l.2).Offers (depth + 1) inFiles := by
      refine ⟨fun h0 => absurd h0 (Nat.succ_ne_zero depth), fun _ => ⟨_, he⟩, fun p hp => ?_⟩
      rw [he] at hp
      obtain rfl := Option.some.inj hp
      rw [hstep.drafts, length_received]
      simp [Folder.sizeAll, Folder.size]
    have hall := hstep.inside he (ihin hinside hroom)
    have hrun : b.addAll (l :: (ns₁ ++ ns₂)) = ((b.add l.1 l.2).addAll ns₁).addAll ns₂ := by
      simp [addAll, List.foldl_append]
    rw [hrun]
    exact .trans ho hall (ih hrest (hall.offers ho))

end Builder

/-! ## Reading -/

namespace Outline

/-- Lines of a forest: every folder and every file is written at its depth. -/
def Written (forest : List Folder) (ls : List (List Char)) : Prop :=
  Arranged File.IsFileLine IsFolderLine 0 [] forest ls

/-- **What is written is read back**: a document of the lines of a forest stands for that forest, and none of its
    lines is dropped. -/
theorem ofText_of_written {forest : List Folder} {ls : List (List Char)} {text : List Char}
    (hf : Folder.AreWritable forest) (hw : Written forest ls) (hd : Document ls text) :
    ofText text = { folders := forest, dropped := [] } := by
  have hnone : ∀ f ∈ ([] : List File), f.IsWritable := by simp
  have hlines : ∀ l ∈ ls, IsLine l :=
    hw.forall_mem (fun _ _ _ => Line.isLine_of_isFileLine) (fun _ _ _ => Line.isLine_of_isFolderLine) hnone hf
  have hread : Arranged ReadsAsFile ReadsAsFolder 0 [] forest (ls.map Line.classify) :=
    hw.map (fun _ _ _ => Line.classify_of_isFileLine) (fun _ _ _ => Line.classify_of_isFolderLine) hnone hf
  have hlist : (classifyFrom 1 (lines text)).map Prod.fst = ls.map Line.classify := by
    rw [map_fst_classifyFrom, spoken_lines_of_document hd hlines]
  have hroom : Builder.empty.Offers 0 [] := ⟨fun _ => rfl, fun h => absurd rfl h, by simp⟩
  have hbuilt := Builder.receives_of_arranged hread hlist hroom
  have hfolders := Builder.folders_build (b := Builder.empty.addAll (classifyFrom 1 (lines text)))
    (by rw [hbuilt.drafts]; rfl) (by rw [hbuilt.roots]; rfl)
  have hdropped : (Builder.empty.addAll (classifyFrom 1 (lines text))).dropped = [] := hbuilt.dropped
  unfold ofText
  rw [Builder.build] at hfolders ⊢
  rw [hdropped, List.map_nil]
  exact congrArg (fun fs => ({ folders := fs, dropped := [] } : Outline)) hfolders

/-- A file that comes behind the block of a subfolder goes back to the folder above, here after a blank line and
    with CR LF at one end. -/
theorem ofText_of_written_nested :
    ofText "a:\n\tb:\r\n\t\ty\n \n\t[T]x - \x7b\"k\":\"v\"\x7d".toList =
      { folders := [.mk "a" [{ templateId := "T", name := "x", parameters := some (.ofList [("k", "v")]) }]
          [.mk "b" [{ name := "y" }] []]]
        dropped := [] } := by
  have hy : ({ name := "y" } : File).IsWritable :=
    ⟨List.all_iff_forall_prop.mp (by decide), List.all_iff_forall_prop.mp (by decide), by decide, by decide,
      by decide, fun _ _ => by decide⟩
  have hx : ({ templateId := "T", name := "x", parameters := some (.ofList [("k", "v")]) } : File).IsWritable :=
    ⟨List.all_iff_forall_prop.mp (by decide), List.all_iff_forall_prop.mp (by decide), by decide, by decide,
      nofun, nofun⟩
  have ha : IsPlainName "a" := ⟨List.all_iff_forall_prop.mp (by decide), by decide, by decide⟩
  have hb : IsPlainName "b" := ⟨List.all_iff_forall_prop.mp (by decide), by decide, by decide⟩
  have hlast : File.IsFileLine 1 { templateId := "T", name := "x", parameters := some (.ofList [("k", "v")]) }
      "\t[T]x - \x7b\"k\":\"v\"\x7d".toList :=
    .withParameters (j := "\x7b\"k\":\"v\"\x7d".toList) rfl (by decide +kernel)
      (List.all_iff_forall_prop.mp (by decide))
  refine ofText_of_written ?_ (.folder rfl (.folder rfl (.file (.bare rfl) .nil) (.file hlast .nil)) .nil) ?_
  · exact ⟨⟨ha, by simpa using hx, ⟨hb, by simpa using hy, trivial⟩, trivial⟩, trivial⟩
  · refine .line "a:".toList (.single (c := '\n') (by decide)) ?_
    refine .line "\tb:".toList .pair ?_
    refine .line "\t\ty".toList (.single (c := '\n') (by decide)) ?_
    refine .blank (w := [' ']) ⟨List.all_iff_forall_prop.mp (by decide), by decide⟩ (.single (c := '\n') (by decide)) ?_
    exact .last _

end Outline

end Stencil
