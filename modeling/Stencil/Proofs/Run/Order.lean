import Stencil.Proofs.Run.Plan

/-!
# `Stencil.Proofs.Run.Order` — orders in which a plan can be done

## Contents
- **Interleavings.** `Interleaves` puts two lists together without changing the order in either.
- **Parts of tasks.** The folder in which a task works, and the name of what it makes there.
- **Parents first.** `Settings.ParentsFirst` says of a list of tasks that each one finds the folder in which it
  works already made.
- **Schedules.** `Settings.Schedule` describes the orders in which folders that lie in one folder may be made: each
  before its files, in any order, and these before its subfolders; what belongs to different folders interleaves.
  `Settings.Schedules` makes root folders one after the other. A schedule has the tasks of the plan, and each finds its
  folder made; the plan is a schedule itself.
-/

namespace Stencil

/-! ## Interleavings -/

/-- The third list is the first two put together, the order in each being kept. -/
inductive Interleaves {α : Type} : List α → List α → List α → Prop
  | nil : Interleaves [] [] []
  | left {a : α} {us vs ws : List α} (h : Interleaves us vs ws) : Interleaves (a :: us) vs (a :: ws)
  | right {a : α} {us vs ws : List α} (h : Interleaves us vs ws) : Interleaves us (a :: vs) (a :: ws)

namespace Interleaves

variable {α : Type} {us vs ws : List α}

theorem perm (h : Interleaves us vs ws) : ws.Perm (us ++ vs) := by
  induction h with
  | nil => exact .refl _
  | left h ih => exact ih.cons _
  | right h ih => exact (ih.cons _).trans List.perm_middle.symm

theorem right_all (vs : List α) : Interleaves [] vs vs := by
  induction vs with
  | nil => exact .nil
  | cons v vs ih => exact .right ih

/-- One list after the other is a way to put them together. -/
theorem append (us vs : List α) : Interleaves us vs (us ++ vs) := by
  induction us with
  | nil => exact right_all vs
  | cons u us ih => exact .left ih

theorem left_all (us : List α) : Interleaves us [] us := by simpa using append us []

end Interleaves

namespace Settings

variable (s : Settings)

/-! ## Parts of tasks -/

/-- The folder in which a task works. -/
def parentOf : Task → Path
  | .folder parent _ => parent
  | .file folder _ => folder

/-- The name of what a task makes. -/
def nameOf : Task → String
  | .folder _ name => s.folderName name
  | .file _ f => s.fileName f

/-- A task makes something with its name in its folder. -/
theorem pathOf_eq (t : Task) : s.pathOf t = parentOf t / s.nameOf t := by
  cases t <;> rfl

/-! ## Parents first -/

/-- Whether a task can be done when the folders `made` are there: a file needs its own folder, a folder may be made
    in `root` as well. -/
def IsReady (root : Path) (made : List Path) : Task → Prop
  | .folder parent _ => parent = root ∨ parent ∈ made
  | .file folder _ => folder ∈ made

/-- Whether each task finds the folder in which it works, when the folders `made` are there at the start. -/
def ParentsFirst (root : Path) : List Path → List Task → Prop
  | _, [] => True
  | made, t :: ts => IsReady root made t ∧ ParentsFirst root (made ++ (s.folderOf? t).toList) ts

variable {s} {root : Path} {made made' : List Path} {t : Task} {ts us : List Task}

/-- The folders that tasks make are those of the first task and those of the others. -/
theorem folders_cons (t : Task) (ts : List Task) :
    (t :: ts).filterMap s.folderOf? = (s.folderOf? t).toList ++ ts.filterMap s.folderOf? := by
  cases hf : s.folderOf? t <;> simp [hf]

/-- Where more folders are there, more tasks can be done. -/
theorem IsReady.mono (h : IsReady root made t) (hsub : made ⊆ made') : IsReady root made' t := by
  cases t with
  | folder parent name => exact h.imp_right fun hp => hsub hp
  | file folder f => exact hsub h

theorem ParentsFirst.mono (h : s.ParentsFirst root made ts) (hsub : made ⊆ made') :
    s.ParentsFirst root made' ts := by
  induction ts generalizing made made' with
  | nil => exact trivial
  | cons t ts ih =>
    obtain ⟨hready, hrest⟩ := h
    exact ⟨hready.mono hsub, ih hrest (List.append_subset.mpr
      ⟨fun p hp => List.mem_append_left _ (hsub hp), List.subset_append_right _ _⟩)⟩

/-- Tasks find their folders if the first of them do so, and so do the others when the first are done. -/
theorem parentsFirst_append_iff :
    s.ParentsFirst root made (ts ++ us) ↔
      s.ParentsFirst root made ts ∧ s.ParentsFirst root (made ++ ts.filterMap s.folderOf?) us := by
  induction ts generalizing made with
  | nil => simp [ParentsFirst]
  | cons t ts ih =>
    rw [List.cons_append, ParentsFirst, ParentsFirst, ih, folders_cons, List.append_assoc, and_assoc]

/-- Files can be made in any order when their folder is there. -/
theorem parentsFirst_files {folder : Path} (h : folder ∈ made) (files : List File) :
    s.ParentsFirst root made (files.map (.file folder)) := by
  induction files generalizing made with
  | nil => exact trivial
  | cons f files ih => exact ⟨h, ih (List.mem_append_left _ h)⟩

/-! ## Schedules -/

/-- The orders in which the folders that lie in one folder may be made with all that is in them. -/
inductive Schedule (s : Settings) : Path → List Folder → List Task → Prop
  | nil {parent : Path} : Schedule s parent [] []
  | cons {parent : Path} {name : String} {files order : List File} {folders others : List Folder}
      {inside outside ts : List Task} (hfiles : order.Perm files)
      (hinside : Schedule s (parent / s.folderName name) folders inside) (houtside : Schedule s parent others outside)
      (h : Interleaves (.folder parent name :: (order.map (.file (parent / s.folderName name)) ++ inside)) outside ts) :
      Schedule s parent (.mk name files folders :: others) ts

/-- The orders in which root folders may be made, one after the other, with all that is in them. -/
inductive Schedules (s : Settings) : List Folder → List Task → Prop
  | nil : Schedules s [] []
  | cons {f : Folder} {fs : List Folder} {ts us : List Task} (h : s.Schedule s.outputRoot [f] ts)
      (hs : Schedules s fs us) : Schedules s (f :: fs) (ts ++ us)

variable {parent : Path} {folders : List Folder} {vs : List Task}

/-- Tasks that find their folders find them also when others come between. -/
theorem ParentsFirst.interleave (h : Interleaves us vs ts) (hus : s.ParentsFirst root made us)
    (hvs : s.ParentsFirst root made vs) : s.ParentsFirst root made ts := by
  induction h generalizing made with
  | nil => exact trivial
  | left h ih =>
    obtain ⟨hready, hrest⟩ := hus
    exact ⟨hready, ih hrest (hvs.mono (List.subset_append_left _ _))⟩
  | right h ih =>
    obtain ⟨hready, hrest⟩ := hvs
    exact ⟨hready, ih (hus.mono (List.subset_append_left _ _)) hrest⟩

/-- A schedule has the tasks of the plan. -/
theorem Schedule.perm (h : s.Schedule parent folders ts) : ts.Perm (s.planFolders parent folders) := by
  induction h with
  | nil => rw [planFolders]
  | @cons parent name files order folders others inside outside ts hfiles hinside houtside h ihinside ihoutside =>
    have hown : (order.map (Task.file (parent / s.folderName name)) ++ inside).Perm
        (files.map (Task.file (parent / s.folderName name)) ++ s.planFolders (parent / s.folderName name) folders) :=
      (hfiles.map _).append ihinside
    rw [planFolders, planFolder]
    exact h.perm.trans ((hown.cons _).append ihoutside)

/-- In a schedule, each folder comes before what lies in it. -/
theorem Schedule.parentsFirst (h : s.Schedule parent folders ts) (hparent : parent = root ∨ parent ∈ made) :
    s.ParentsFirst root made ts := by
  induction h generalizing made with
  | nil => exact trivial
  | @cons parent name files order folders others inside outside ts hfiles hinside houtside h ihinside ihoutside =>
    have hself : parent / s.folderName name ∈ made ++ [parent / s.folderName name] := by simp
    have hown : s.ParentsFirst root (made ++ [parent / s.folderName name])
        (order.map (.file (parent / s.folderName name)) ++ inside) :=
      parentsFirst_append_iff.mpr
        ⟨parentsFirst_files hself order, ihinside (.inr (List.mem_append_left _ hself))⟩
    exact ParentsFirst.interleave h ⟨hparent, hown⟩ (ihoutside hparent)

theorem planFolders_cons (parent : Path) (f : Folder) (fs : List Folder) :
    s.planFolders parent (f :: fs) = s.planFolders parent [f] ++ s.planFolders parent fs := by
  simp only [planFolders, List.append_nil]

theorem Schedules.perm (h : s.Schedules folders ts) : ts.Perm (s.planFolders s.outputRoot folders) := by
  induction h with
  | nil => rw [planFolders]
  | cons h hs ih =>
    rw [planFolders_cons]
    exact h.perm.append ih

theorem Schedules.parentsFirst (h : s.Schedules folders ts) : s.ParentsFirst s.outputRoot made ts := by
  induction h generalizing made with
  | nil => exact trivial
  | cons h hs ih => exact parentsFirst_append_iff.mpr ⟨h.parentsFirst (.inl rfl), ih⟩

mutual

/-- What a folder asks for may come before what others ask for. -/
theorem schedule_planFolder {parent : Path} {others : List Folder} {outside : List Task} : (f : Folder) →
    s.Schedule parent others outside → s.Schedule parent (f :: others) (s.planFolder parent f ++ outside)
  | .mk name files folders, houtside => by
    rw [planFolder]
    exact .cons (.refl files) (schedule_planFolders folders) houtside (Interleaves.append _ _)

theorem schedule_planFolders {parent : Path} : (fs : List Folder) → s.Schedule parent fs (s.planFolders parent fs)
  | [] => by
    rw [planFolders]
    exact .nil
  | f :: fs => by
    rw [planFolders]
    exact schedule_planFolder f (schedule_planFolders fs)

end

/-- **The plan is a schedule.** -/
theorem schedules_plan (s : Settings) (o : Outline) : s.Schedules o.folders (s.plan o) := by
  unfold plan
  induction o.folders with
  | nil =>
    rw [planFolders]
    exact .nil
  | cons f fs ih =>
    rw [planFolders_cons]
    exact .cons (schedule_planFolders [f]) ih

/-- **In a plan, each folder comes before what lies in it.** -/
theorem parentsFirst_plan (s : Settings) (o : Outline) : s.ParentsFirst s.outputRoot [] (s.plan o) :=
  (s.schedules_plan o).parentsFirst

end Settings

end Stencil
