import Stencil.Proofs.Run.Turns

/-!
# `Stencil.Proofs.Run.Last` — which part comes last

## Contents
- **Last parts.** Of the parts of work that have something in common, `Work.last` gives those after which no other one
  has to come. There may be several: what goes on side by side can come in any order.
- **Turns.** A part that takes its turn is one of the last, or one of the last has not begun (`Turn.last`).
-/

namespace Stencil

/-- The file of a task that makes one. -/
def Task.file? : Task → Option File
  | .folder _ _ => none
  | .file _ f => some f

namespace Work

variable {q : Task → Bool} {v w : Work}

/-! ## Last parts -/

/-- The parts with tasks that have a property after which no part with such a task has to come. -/
def last (q : Task → Bool) : Work → List Part
  | .nothing => []
  | .part p => if q p.task then [p] else []
  | .seq v w => if (w.last q).isEmpty then v.last q else w.last q
  | .queue v w => if (w.last q).isEmpty then v.last q else w.last q
  | .par v w => v.last q ++ w.last q

theorem mem_last {p : Part} (h : p ∈ w.last q) : p ∈ w.parts ∧ q p.task = true := by
  induction w with
  | nothing => cases h
  | part p' =>
    rw [last] at h
    split at h
    · next hq =>
      obtain rfl := List.mem_singleton.mp h
      exact ⟨List.mem_singleton_self _, hq⟩
    · cases h
  | seq v w ihv ihw | queue v w ihv ihw =>
    rw [last] at h
    rw [parts, List.mem_append]
    split at h
    · exact ⟨.inl (ihv h).1, (ihv h).2⟩
    · exact ⟨.inr (ihw h).1, (ihw h).2⟩
  | par v w ihv ihw =>
    rw [parts, List.mem_append]
    rcases List.mem_append.mp h with hv | hw
    · exact ⟨.inl (ihv hv).1, (ihv hv).2⟩
    · exact ⟨.inr (ihw hw).1, (ihw hw).2⟩

/-- Where there is a part with such a task, there is a last one. -/
theorem last_ne_nil {p : Part} (hp : p ∈ w.parts) (hq : q p.task = true) : w.last q ≠ [] := by
  induction w with
  | nothing => cases hp
  | part p' =>
    obtain rfl := List.mem_singleton.mp hp
    simp [last, hq]
  | seq v w ihv ihw | queue v w ihv ihw =>
    rw [last]
    split
    · next hnone =>
      rw [List.isEmpty_iff] at hnone
      exact ihv ((List.mem_append.mp hp).resolve_right fun hw => ihw hw hnone)
    · next hsome => simpa using hsome
  | par v w ihv ihw =>
    rw [last, ne_eq, List.append_eq_nil_iff, not_and_or]
    exact (List.mem_append.mp hp).imp ihv ihw

/-- It does not matter what is asked of tasks that there are not. -/
theorem last_congr {q' : Task → Bool} (h : ∀ t ∈ w.tasks, q t = q' t) : w.last q = w.last q' := by
  induction w with
  | nothing => rfl
  | part p => rw [last, last, h p.task (List.mem_singleton_self _)]
  | seq v w ihv ihw | queue v w ihv ihw | par v w ihv ihw =>
    rw [tasks, parts, List.map_append] at h
    rw [last, last, ihv fun t ht => h t (List.mem_append_left _ ht), ihw fun t ht => h t (List.mem_append_right _ ht)]

/-- The files of the last parts. -/
def lastFiles (q : Task → Bool) (w : Work) : List File := ((w.last q).map Part.task).filterMap Task.file?

theorem mem_lastFiles_iff {f : File} :
    f ∈ w.lastFiles q ↔ ∃ folder, .file folder f ∈ (w.last q).map Part.task := by
  rw [lastFiles, List.mem_filterMap]
  constructor
  · rintro ⟨t, ht, hfile⟩
    cases t with
    | folder parent name => cases hfile
    | file folder f' =>
      obtain rfl := Option.some.inj hfile
      exact ⟨folder, ht⟩
  · rintro ⟨folder, ht⟩
    exact ⟨_, ht, rfl⟩

/-- A last file is that of a task with the property. -/
theorem exists_mem_tasks_of_mem_lastFiles {f : File} (h : f ∈ w.lastFiles q) :
    ∃ folder, .file folder f ∈ w.tasks ∧ q (.file folder f) = true := by
  obtain ⟨folder, hmem⟩ := mem_lastFiles_iff.mp h
  obtain ⟨⟨t, stage⟩, hp, rfl⟩ := List.mem_map.mp hmem
  obtain ⟨hparts, hq⟩ := mem_last hp
  exact ⟨folder, List.mem_map_of_mem hparts, hq⟩

/-! ## Turns -/

variable {t : Task} {stage stage' : Stage t} {w' : Work}

/-- What a turn does to the last parts: one of them is exchanged, or they stay. They stay, although the part has such a
    task, only if one of them has not begun. -/
inductive LastTurn (q : Task → Bool) (stage stage' : Stage t) (w w' : Work) : Prop
  | exchanged {before after : List Part} (hold : w.last q = before ++ ⟨t, stage⟩ :: after)
      (hnew : w'.last q = before ++ ⟨t, stage'⟩ :: after)
  | kept (hkept : w'.last q = w.last q) (hwaits : q t = true → ∃ p ∈ w.last q, p.stage.isNew = true)

namespace LastTurn

variable {u u' : Work}

/-- A last part is one still, or it is the one that goes on, and is last at its next stage. -/
theorem mem_or (h : LastTurn q stage stage' w w') {p : Part} (hp : p ∈ w.last q) :
    p = ⟨t, stage⟩ ∧ ⟨t, stage'⟩ ∈ w'.last q ∨ p ∈ w'.last q := by
  cases h with
  | exchanged hold hnew =>
    rw [hold] at hp
    rw [hnew]
    simp only [List.mem_append, List.mem_cons, true_or, or_true, and_true] at hp ⊢
    tauto
  | kept hkept hwaits => exact .inr (hkept ▸ hp)

/-- A turn does not change which tasks come last. -/
theorem tasks (h : LastTurn q stage stage' w w') : (w'.last q).map Part.task = (w.last q).map Part.task := by
  cases h with
  | exchanged hold hnew => simp [hold, hnew]
  | kept hkept hwaits => rw [hkept]

/-- What a turn does to the last parts of some work, it does to the last parts of work that has the same. -/
theorem congr (h : LastTurn q stage stage' w w') (hold : u.last q = w.last q) (hnew : u'.last q = w'.last q) :
    LastTurn q stage stage' u u' := by
  cases h with
  | exchanged ho hn => exact .exchanged (hold.trans ho) (hnew.trans hn)
  | kept hk hw =>
    refine .kept (by rw [hnew, hk, hold]) fun hq => ?_
    rw [hold]
    exact hw hq

/-- Last parts on both sides stay last. -/
theorem append (h : LastTurn q stage stage' w w') {before after : List Part}
    (hold : u.last q = before ++ w.last q ++ after) (hnew : u'.last q = before ++ w'.last q ++ after) :
    LastTurn q stage stage' u u' := by
  cases h with
  | @exchanged b a ho hn =>
    have hold' : u.last q = (before ++ b) ++ ⟨t, stage⟩ :: (a ++ after) := by simp [hold, ho]
    have hnew' : u'.last q = (before ++ b) ++ ⟨t, stage'⟩ :: (a ++ after) := by simp [hnew, hn]
    exact .exchanged hold' hnew'
  | kept hk hw =>
    refine .kept (by rw [hnew, hk, hold]) fun hq => ?_
    obtain ⟨p, hp, hpnew⟩ := hw hq
    exact ⟨p, by simp [hold, hp], hpnew⟩

end LastTurn

/-- If the second work has to wait for the first one, it has not begun while the first one goes on. -/
theorem lastTurn_of_first {v' u u' : Work} (h : LastTurn q stage stage' v v') (hwait : w.isNew = true)
    (hold : u.last q = if (w.last q).isEmpty then v.last q else w.last q)
    (hnew : u'.last q = if (w.last q).isEmpty then v'.last q else w.last q) : LastTurn q stage stage' u u' := by
  cases hempty : (w.last q).isEmpty with
  -- the last parts are in the first work, or none of them has begun
  | true => exact h.congr (by simp [hold, hempty]) (by simp [hnew, hempty])
  | false =>
    simp only [hempty, Bool.false_eq_true, if_false] at hold hnew
    refine .kept (hnew.trans hold.symm) fun _ => ?_
    obtain ⟨p, hp⟩ := List.exists_mem_of_ne_nil (w.last q) (by simpa using hempty)
    exact ⟨p, hold ▸ hp, List.all_eq_true.mp hwait p (mem_last hp).1⟩

/-- What goes on in the second work exchanges one of the last parts there, or the last parts are elsewhere. -/
theorem lastTurn_of_second {u u' : Work} (h : LastTurn q stage stage' w w')
    (hold : u.last q = if (w.last q).isEmpty then v.last q else w.last q)
    (hnew : u'.last q = if (w'.last q).isEmpty then v.last q else w'.last q) : LastTurn q stage stage' u u' := by
  cases h with
  | @exchanged before after ho hn => exact .exchanged (by simpa [ho] using hold) (by simpa [hn] using hnew)
  | kept hk hw =>
    rw [hk] at hnew
    -- a part of the second work that has not begun is last there, so the last parts of all are there
    refine .kept (hnew.trans hold.symm) fun hq => ?_
    obtain ⟨p, hp, hpnew⟩ := hw hq
    have hsome : (w.last q).isEmpty = false := by simpa using List.ne_nil_of_mem hp
    exact ⟨p, by simpa [hold, hsome] using hp, hpnew⟩

/-- **A part that takes its turn is one of the last, or one of the last has not begun**, if it has such a task. -/
theorem Turn.last (h : Turn stage stage' w w') (horderly : w.Orderly) (hahead : stage.ahead ≠ 0) (q : Task → Bool) :
    LastTurn q stage stage' w w' := by
  induction h with
  | part =>
    by_cases hq : q t = true
    · have hone (stage : Stage t) : Work.last q (.part ⟨t, stage⟩) = [] ++ ⟨t, stage⟩ :: [] := if_pos hq
      exact .exchanged (hone stage) (hone stage')
    · have hnone (stage : Stage t) : Work.last q (.part ⟨t, stage⟩) = [] := if_neg hq
      exact .kept ((hnone stage').trans (hnone stage).symm) fun hq' => absurd hq' hq
  | @first v v' w h ih =>
    obtain ⟨hv, -, hwait⟩ := horderly
    exact lastTurn_of_first (ih hv) (hwait.resolve_left (h.not_isMade hahead)) rfl rfl
  | @head v v' w h ih =>
    obtain ⟨hv, -, hwait⟩ := horderly
    exact lastTurn_of_first (ih hv) (hwait.resolve_left (by simp [h.canGo hahead])) rfl rfl
  | second hmade h ih => exact lastTurn_of_second (ih horderly.2.1) rfl rfl
  | tail hgo h ih => exact lastTurn_of_second (ih horderly.2.1) rfl rfl
  | @left v v' w h ih =>
    have hsides (v : Work) : Work.last q (.par v w) = [] ++ v.last q ++ w.last q := rfl
    exact (ih horderly.1).append (hsides v) (hsides v')
  | @right v w w' h ih =>
    have hsides (w : Work) : Work.last q (.par v w) = v.last q ++ w.last q ++ [] := (List.append_nil _).symm
    exact (ih horderly.2).append (hsides w) (hsides w')

end Work

/-- **Steps do not change which tasks come last.** -/
theorem Generator.Steps.last_tasks {g : Generator} {w w' : Work} {s s' : RunState} (h : g.Steps w s w' s')
    (horderly : w.Orderly) (q : Task → Bool) : (w'.last q).map Part.task = (w.last q).map Part.task := by
  refine h.keeps_after (p := fun w₁ _ => (w₁.last q).map Part.task = (w.last q).map Part.task) rfl
    fun w₁ _ _ _ hsteps hlast hstep => ?_
  cases hstep with
  | mk hahead hturn hact => exact (hturn.last (hsteps.orderly horderly) hahead q).tasks.trans hlast

theorem Generator.Steps.lastFiles {g : Generator} {w w' : Work} {s s' : RunState} (h : g.Steps w s w' s')
    (horderly : w.Orderly) (q : Task → Bool) : w'.lastFiles q = w.lastFiles q := by
  rw [Work.lastFiles, h.last_tasks horderly, Work.lastFiles]

end Stencil
