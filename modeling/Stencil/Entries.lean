/-!
# `Stencil.Entries` — lists of pairs as ordered maps

## Contents
- **Operations.** `insert` gives a key its value: in place if the key is there, at the end if not.
  `merge` inserts one list into another, so its values win and the first position of a key stays.
- **Laws.** What `get?` finds after an `insert`, that distinct keys stay distinct, that merging is
  associative, and that merging twice is merging once.
-/

namespace Stencil.Entries

variable {κ α : Type} [DecidableEq κ]

/-- The keys, in order. -/
abbrev keys (es : List (κ × α)) : List κ := es.map Prod.fst

/-- The value at the first entry with the key. -/
def get? (k : κ) : List (κ × α) → Option α
  | [] => none
  | e :: es => if e.1 = k then some e.2 else get? k es

/-- Gives the key its value; a new key goes to the end. -/
def insert (k : κ) (v : α) : List (κ × α) → List (κ × α)
  | [] => [(k, v)]
  | e :: es => if e.1 = k then (k, v) :: es else e :: insert k v es

/-- Inserts the entries of `more` one after the other. -/
def merge (es more : List (κ × α)) : List (κ × α) :=
  more.foldl (fun acc e => insert e.1 e.2 acc) es

/-- One entry for each key: at its first position, with its last value. -/
def collapse (es : List (κ × α)) : List (κ × α) := merge [] es

@[simp] theorem merge_nil (es : List (κ × α)) : merge es [] = es := rfl

@[simp] theorem merge_cons (es : List (κ × α)) (e : κ × α) (more : List (κ × α)) :
    merge es (e :: more) = merge (insert e.1 e.2 es) more := rfl

theorem get?_insert_self (k : κ) (v : α) (es : List (κ × α)) : get? k (insert k v es) = some v := by
  induction es with
  | nil => simp [insert, get?]
  | cons e es ih => by_cases h : e.1 = k <;> simp [insert, get?, h, ih]

theorem get?_insert_of_ne {k l : κ} (h : k ≠ l) (v : α) (es : List (κ × α)) :
    get? l (insert k v es) = get? l es := by
  induction es with
  | nil => simp [insert, get?, h]
  | cons e es ih =>
    by_cases hk : e.1 = k
    · simp [insert, get?, hk, h]
    · simp only [insert, hk, if_false, get?, ih]

/-- A key is found exactly if it is one of the keys. -/
theorem get?_eq_none_iff {k : κ} {es : List (κ × α)} : get? k es = none ↔ k ∉ keys es := by
  induction es with
  | nil => simp [get?]
  | cons e es ih =>
    by_cases h : e.1 = k
    · simp [get?, h]
    · simp [get?, h, ih, Ne.symm h]

/-- What is found stands behind entries with other keys. -/
theorem exists_append_of_get? {k : κ} {v : α} {es : List (κ × α)} (h : get? k es = some v) :
    ∃ before after, es = before ++ (k, v) :: after ∧ k ∉ keys before := by
  induction es with
  | nil => cases h
  | cons e es ih =>
    by_cases hk : e.1 = k
    · rw [get?, if_pos hk] at h
      obtain rfl := Option.some.inj h
      exact ⟨[], es, by rw [← hk]; rfl, by simp⟩
    · rw [get?, if_neg hk] at h
      obtain ⟨before, after, rfl, hnot⟩ := ih h
      exact ⟨e :: before, after, rfl, by simpa [Ne.symm hk] using hnot⟩

theorem mem_keys_insert {k l : κ} {v : α} {es : List (κ × α)} :
    l ∈ keys (insert k v es) ↔ l = k ∨ l ∈ keys es := by
  induction es with
  | nil => simp [insert]
  | cons e es ih =>
    by_cases h : e.1 = k
    · simp [insert, h]
    · simp only [insert, h, if_false, List.map_cons, List.mem_cons, ih]
      constructor
      · rintro (rfl | rfl | h) <;> simp_all
      · rintro (rfl | rfl | h) <;> simp_all

/-- Inserting keeps the keys distinct. -/
theorem nodup_keys_insert {k : κ} {v : α} {es : List (κ × α)} (h : (keys es).Nodup) :
    (keys (insert k v es)).Nodup := by
  induction es with
  | nil => simp [insert]
  | cons e es ih =>
    simp only [List.map_cons, List.nodup_cons] at h
    by_cases hk : e.1 = k
    · subst hk
      simpa [insert] using h
    · simp only [insert, hk, if_false, List.map_cons, List.nodup_cons]
      refine ⟨fun hm => ?_, ih h.2⟩
      rcases mem_keys_insert.1 hm with he | hm
      · exact hk he
      · exact h.1 hm

/-- Merging keeps the keys distinct. -/
theorem nodup_keys_merge {es : List (κ × α)} (more : List (κ × α)) (h : (keys es).Nodup) :
    (keys (merge es more)).Nodup := by
  induction more generalizing es with
  | nil => exact h
  | cons e more ih => exact ih (nodup_keys_insert h)

/-- The keys after merging are those of both lists. -/
theorem mem_keys_merge {k : κ} {es more : List (κ × α)} : k ∈ keys (merge es more) ↔ k ∈ keys es ∨ k ∈ keys more := by
  induction more generalizing es with
  | nil => simp
  | cons e more ih =>
    have hkeys : k ∈ keys (e :: more) ↔ k = e.1 ∨ k ∈ keys more := List.mem_cons
    rw [merge_cons, ih, mem_keys_insert, hkeys, or_assoc, or_left_comm]

/-- A new key goes to the end. -/
theorem insert_of_not_mem {k : κ} {v : α} {es : List (κ × α)} (h : k ∉ keys es) :
    insert k v es = es ++ [(k, v)] := by
  induction es with
  | nil => rfl
  | cons e es ih =>
    simp only [List.map_cons, List.mem_cons, not_or] at h
    simp [insert, Ne.symm h.1, ih h.2]

/-- Entries with distinct new keys are put behind. -/
theorem merge_eq_append {es more : List (κ × α)} (h : (keys (es ++ more)).Nodup) :
    merge es more = es ++ more := by
  induction more generalizing es with
  | nil => simp
  | cons e more ih =>
    have hk : e.1 ∉ keys es := by
      intro hm
      simp only [keys, List.map_append, List.map_cons, List.nodup_append] at h
      exact h.2.2 _ hm e.1 (by simp) rfl
    rw [merge_cons, insert_of_not_mem hk, ih (by simpa using h)]
    simp

/-- Entries with distinct keys are their own collapse. -/
theorem collapse_eq_self {es : List (κ × α)} (h : (keys es).Nodup) : collapse es = es := by
  rw [collapse, merge_eq_append (by simpa using h), List.nil_append]

section Renamed

variable {κ' α' : Type} [DecidableEq κ'] {f : κ → κ'} (hf : ∀ k l, f k = f l → k = l) (g : α → α')

include hf

theorem insert_map (k : κ) (v : α) (es : List (κ × α)) :
    insert (f k) (g v) (es.map fun e => (f e.1, g e.2)) = (insert k v es).map fun e => (f e.1, g e.2) := by
  induction es with
  | nil => rfl
  | cons e es ih =>
    rw [List.map_cons, insert, insert, ih]
    by_cases hk : e.1 = k
    · rw [if_pos hk, if_pos (congrArg f hk), List.map_cons]
    · rw [if_neg hk, if_neg (mt (hf _ _) hk), List.map_cons]

theorem merge_map (es more : List (κ × α)) :
    merge (es.map fun e => (f e.1, g e.2)) (more.map fun e => (f e.1, g e.2)) =
      (merge es more).map fun e => (f e.1, g e.2) := by
  induction more generalizing es with
  | nil => rfl
  | cons e more ih =>
    rw [List.map_cons, merge_cons, merge_cons, ← ih]
    exact congrArg (merge · _) (insert_map hf g e.1 e.2 es)

/-- Keys can be renamed before or after the collapse, if different keys stay different. -/
theorem collapse_map (es : List (κ × α)) :
    collapse (es.map fun e => (f e.1, g e.2)) = (collapse es).map fun e => (f e.1, g e.2) :=
  merge_map hf g [] es

end Renamed

/-- What is found is one of the entries. -/
theorem mem_of_get? {k : κ} {v : α} {es : List (κ × α)} (h : get? k es = some v) : (k, v) ∈ es := by
  obtain ⟨before, after, rfl, -⟩ := exists_append_of_get? h
  simp

/-- Where both lists have a key, the one that is merged in gives the value. -/
theorem get?_merge {more : List (κ × α)} (h : (keys more).Nodup) (k : κ) (es : List (κ × α)) :
    get? k (merge es more) = (get? k more).or (get? k es) := by
  induction more generalizing es with
  | nil => rfl
  | cons e more ih =>
    simp only [List.map_cons, List.nodup_cons] at h
    rw [merge_cons, ih h.2, get?]
    by_cases hk : e.1 = k
    · have hnone : get? k more = none := get?_eq_none_iff.mpr (hk ▸ h.1)
      rw [if_pos hk, hnone, ← hk, get?_insert_self]
      rfl
    · rw [if_neg hk, get?_insert_of_ne hk]

/-- Of two values for a key the last one counts. -/
theorem insert_insert_self (k : κ) (v w : α) (es : List (κ × α)) :
    insert k v (insert k w es) = insert k v es := by
  induction es with
  | nil => simp [insert]
  | cons e es ih => by_cases h : e.1 = k <;> simp [insert, h, ih]

/-- The value of a key that is there can be given sooner or later. -/
theorem insert_insert_of_mem {k l : κ} {v w : α} {es : List (κ × α)} (hk : k ∈ keys es) (h : k ≠ l) :
    insert k v (insert l w es) = insert l w (insert k v es) := by
  induction es with
  | nil => simp at hk
  | cons e es ih =>
    by_cases hek : e.1 = k
    · simp [insert, hek, h]
    · have hin : k ∈ keys es := by simpa [Ne.symm hek] using hk
      by_cases hel : e.1 = l
      · simp [insert, hel, Ne.symm h]
      · simp [insert, hek, hel, ih hin]

/-- The value of a key that is there can be given before other keys are merged in. -/
theorem insert_merge_of_mem {k : κ} {v : α} {es more : List (κ × α)} (hk : k ∈ keys es)
    (h : k ∉ keys more) : insert k v (merge es more) = merge (insert k v es) more := by
  induction more generalizing es with
  | nil => rfl
  | cons e more ih =>
    simp only [List.map_cons, List.mem_cons, not_or] at h
    rw [merge_cons, merge_cons, ih (mem_keys_insert.mpr (.inr hk)) h.2, insert_insert_of_mem hk h.1]

/-- Inserting and merging can be done in either order, if the keys that are merged in are distinct. -/
theorem merge_insert (k : κ) (v : α) {es more : List (κ × α)} (h : (keys more).Nodup) :
    merge es (insert k v more) = insert k v (merge es more) := by
  induction more generalizing es with
  | nil => rfl
  | cons e more ih =>
    simp only [List.map_cons, List.nodup_cons] at h
    by_cases hk : e.1 = k
    · subst hk
      have hmem : e.1 ∈ keys (insert e.1 e.2 es) := mem_keys_insert.mpr (.inl rfl)
      rw [insert, if_pos rfl, merge_cons, merge_cons, insert_merge_of_mem hmem h.1, insert_insert_self]
    · rw [insert, if_neg hk, merge_cons, merge_cons, ih h.2]

/-- **Merging is associative**, if the keys in the middle are distinct. -/
theorem merge_assoc (es more : List (κ × α)) {mid : List (κ × α)} (h : (keys mid).Nodup) :
    merge es (merge mid more) = merge (merge es mid) more := by
  induction more generalizing mid with
  | nil => rfl
  | cons e more ih => rw [merge_cons, merge_cons, ih (nodup_keys_insert h), merge_insert _ _ h]

/-- Inserting what is there changes nothing. -/
theorem insert_eq_self {k : κ} {v : α} {es : List (κ × α)} (h : get? k es = some v) : insert k v es = es := by
  induction es with
  | nil => cases h
  | cons e es ih =>
    by_cases hk : e.1 = k
    · rw [get?, if_pos hk, Option.some.injEq] at h
      rw [insert, if_pos hk, ← hk, ← h]
    · rw [get?, if_neg hk] at h
      rw [insert, if_neg hk, ih h]

/-- Merging what is there changes nothing. -/
theorem merge_eq_self {es more : List (κ × α)} (h : ∀ e ∈ more, get? e.1 es = some e.2) : merge es more = es := by
  induction more with
  | nil => rfl
  | cons e more ih =>
    rw [merge_cons, insert_eq_self (h e List.mem_cons_self)]
    exact ih fun d hd => h d (List.mem_cons_of_mem e hd)

/-- Of several values for a key only the last one matters to a merge. -/
theorem merge_collapse (es more : List (κ × α)) : merge es (collapse more) = merge es more :=
  merge_assoc es more List.nodup_nil

theorem get?_of_mem {e : κ × α} {es : List (κ × α)} (h : (keys es).Nodup) (he : e ∈ es) :
    get? e.1 es = some e.2 := by
  induction es with
  | nil => cases he
  | cons d es ih =>
    simp only [List.map_cons, List.nodup_cons] at h
    rcases List.mem_cons.mp he with rfl | he
    · rw [get?, if_pos rfl]
    · have hne : d.1 ≠ e.1 := fun heq => h.1 (heq ▸ List.mem_map_of_mem he)
      rw [get?, if_neg hne, ih h.2 he]

/-- A merge after which every key has the value that it had changes nothing. -/
theorem merge_eq_self_of_get? {es more : List (κ × α)} (h : ∀ k ∈ keys more, get? k (merge es more) = get? k es) :
    merge es more = es := by
  have hnodup : (keys (collapse more)).Nodup := nodup_keys_merge more List.nodup_nil
  rw [← merge_collapse es]
  refine merge_eq_self fun e he => ?_
  have hkey : e.1 ∈ keys more := by simpa [keys] using mem_keys_merge.mp (List.mem_map_of_mem he)
  rw [← h e.1 hkey, ← merge_collapse es, get?_merge hnodup, get?_of_mem hnodup he, Option.some_or]

end Stencil.Entries
