import Stencil.Json.Parser

/-!
# `Stencil.Proofs.Json.Step` — what one call of the reader does

The reader of JSON calls itself with one unit of fuel less. For a value, for members and for items a relation
says what is read at one call, in either dialect, and from what; the calls inside stay as they are. What is said
of all that is read follows by induction on the fuel, one case for each constructor.

## Contents
- **Relations.** `ReadsValue`, `ReadsMembers` and `ReadsItems`.
- **Calls.** A call succeeds exactly as its relation says (`value_eq_ok_iff`, `members_eq_ok_iff`,
  `items_eq_ok_iff`).
-/

namespace Stencil.Json

open Text

/-! ## Relations -/

section Relations

variable (d : Dialect) (fuel : Nat)

/-- What a value is read from; its parts are read with `fuel`. -/
inductive ReadsValue : List Char → Value → List Char → Prop
  | string {cs r : List Char} {p : CodePoints} (h : stringBody d cs = .ok (p, r)) :
      ReadsValue ('"' :: cs) (.string p.inBytes) r
  | emptyObject {cs r : List Char} (h : skipSpace cs = '}' :: r) : ReadsValue ('{' :: cs) (.object []) r
  | object {cs r : List Char} {ms : List (CodePoints × Value)} (hopen : (skipSpace cs).head? ≠ some '}')
      (h : members d fuel (skipSpace cs) = .ok (ms, r)) : ReadsValue ('{' :: cs) (objectOf d ms) r
  | emptyArray {cs r : List Char} (h : skipSpace cs = ']' :: r) : ReadsValue ('[' :: cs) (.array []) r
  | array {cs r : List Char} {vs : List Value} (hopen : (skipSpace cs).head? ≠ some ']')
      (h : items d fuel (skipSpace cs) = .ok (vs, r)) : ReadsValue ('[' :: cs) (.array vs) r
  | literal {cs r : List Char} {v : Value} (hstart : ∀ c, cs.head? = some c → c ∉ ['"', '{', '['])
      (h : literal? cs = some (v, r)) : ReadsValue cs v r
  | number {cs r : List Char} {v : Value} (hstart : ∀ c, cs.head? = some c → c ∉ ['"', '{', '['])
      (hnone : literal? cs = none) (h : number d cs = .ok (v, r)) : ReadsValue cs v r

/-- What members are read from; their values are read with `fuel`. -/
inductive ReadsMembers : List Char → List (CodePoints × Value) → List Char → Prop
  | last {cs r₁ r₂ r₃ r : List Char} {name : CodePoints} {v : Value} (hname : stringBody d cs = .ok (name, r₁))
      (hcolon : skipSpace r₁ = ':' :: r₂) (hv : value d fuel (skipSpace r₂) = .ok (v, r₃))
      (hend : skipSpace r₃ = '}' :: r) : ReadsMembers ('"' :: cs) [(name, v)] r
  | more {cs r₁ r₂ r₃ r₄ r : List Char} {name : CodePoints} {v : Value} {ms : List (CodePoints × Value)}
      (hname : stringBody d cs = .ok (name, r₁)) (hcolon : skipSpace r₁ = ':' :: r₂)
      (hv : value d fuel (skipSpace r₂) = .ok (v, r₃)) (hcomma : skipSpace r₃ = ',' :: r₄)
      (hms : members d fuel (skipSpace r₄) = .ok (ms, r)) : ReadsMembers ('"' :: cs) ((name, v) :: ms) r

/-- What items are read from, with `fuel`. -/
inductive ReadsItems : List Char → List Value → List Char → Prop
  | last {cs r₁ r : List Char} {v : Value} (hv : value d fuel cs = .ok (v, r₁)) (hend : skipSpace r₁ = ']' :: r) :
      ReadsItems cs [v] r
  | more {cs r₁ r₂ r : List Char} {v : Value} {vs : List Value} (hv : value d fuel cs = .ok (v, r₁))
      (hcomma : skipSpace r₁ = ',' :: r₂) (hvs : items d fuel (skipSpace r₂) = .ok (vs, r)) :
      ReadsItems cs (v :: vs) r

end Relations

/-! ## Calls -/

theorem map_eq_ok {ε α β : Type} {f : α → β} {x : Except ε α} {b : β} (h : x.map f = .ok b) :
    ∃ a, x = .ok a ∧ f a = b := by
  cases x with
  | error e => cases h
  | ok a => exact ⟨a, rfl, Except.ok.inj h⟩

variable {d : Dialect} {fuel : Nat} {cs r : List Char}

theorem value_array (h : (skipSpace r).head? ≠ some ']') :
    value d (fuel + 1) ('[' :: r) = (items d fuel (skipSpace r)).map fun p => (.array p.1, p.2) := by
  rw [value]
  split
  · next r' hr => rw [hr] at h; exact absurd rfl h
  · rfl

theorem value_object (h : (skipSpace r).head? ≠ some '}') :
    value d (fuel + 1) ('{' :: r) =
      (members d fuel (skipSpace r)).map fun p => (objectOf d p.1, p.2) := by
  rw [value]
  split
  · next r' hr => rw [hr] at h; exact absurd rfl h
  · rfl

/-- What starts with neither a quote nor an opening bracket is a word or a numeral. -/
theorem value_of_start (hstart : ∀ c, cs.head? = some c → c ∉ ['"', '{', '[']) :
    value d (fuel + 1) cs = match literal? cs with
      | some p => .ok p
      | none => number d cs := by
  unfold value
  split
  · exact absurd (hstart _ rfl) (by decide)
  · exact absurd (hstart _ rfl) (by decide)
  · exact absurd (hstart _ rfl) (by decide)
  · rfl

theorem value_eq_ok_iff {v : Value} : value d (fuel + 1) cs = .ok (v, r) ↔ ReadsValue d fuel cs v r := by
  constructor
  · intro h
    unfold value at h
    split at h
    · obtain ⟨⟨p, t⟩, hbody, he⟩ := map_eq_ok h
      cases he
      exact .string hbody
    · next t =>
      split at h
      · next t' hend =>
        cases h
        exact .emptyObject hend
      · next hopen =>
        obtain ⟨⟨ms, t'⟩, hms, he⟩ := map_eq_ok h
        cases he
        refine .object (fun hhead => ?_) hms
        obtain ⟨t'', ht⟩ := List.head?_eq_some_iff.mp hhead
        exact hopen t'' ht
    · next t =>
      split at h
      · next t' hend =>
        cases h
        exact .emptyArray hend
      · next hopen =>
        obtain ⟨⟨vs, t'⟩, hvs, he⟩ := map_eq_ok h
        cases he
        refine .array (fun hhead => ?_) hvs
        obtain ⟨t'', ht⟩ := List.head?_eq_some_iff.mp hhead
        exact hopen t'' ht
    · next hquote hbrace hbracket =>
      have hstart : ∀ c, cs.head? = some c → c ∉ ['"', '{', '['] := by
        intro c hc hin
        obtain ⟨t, rfl⟩ := List.head?_eq_some_iff.mp hc
        simp only [List.mem_cons, List.not_mem_nil, or_false] at hin
        rcases hin with rfl | rfl | rfl
        · exact hquote t rfl
        · exact hbrace t rfl
        · exact hbracket t rfl
      split at h
      · next p hp =>
        cases h
        exact .literal hstart hp
      · next hnone => exact .number hstart hnone h
  · intro h
    cases h with
    | string h =>
      unfold value
      simp only [h]
      rfl
    | emptyObject h =>
      unfold value
      simp only [h]
    | object hopen h =>
      rw [value_object hopen, h]
      rfl
    | emptyArray h =>
      unfold value
      simp only [h]
    | array hopen h =>
      rw [value_array hopen, h]
      rfl
    | literal hstart h => rw [value_of_start hstart, h]
    | number hstart hnone h => rw [value_of_start hstart, hnone, h]

theorem members_eq_ok_iff {ms : List (CodePoints × Value)} :
    members d (fuel + 1) cs = .ok (ms, r) ↔ ReadsMembers d fuel cs ms r := by
  constructor
  · intro h
    unfold members at h
    split at h
    · split at h
      · cases h
      · next name r₁ hname =>
        split at h
        · next r₂ hcolon =>
          split at h
          · cases h
          · next v r₃ hv =>
            split at h
            · next r₄ hend =>
              cases h
              exact .last hname hcolon hv hend
            · next r₄ hcomma =>
              obtain ⟨⟨ms', t⟩, hms, he⟩ := map_eq_ok h
              cases he
              exact .more hname hcolon hv hcomma hms
            · cases h
        · cases h
    · cases h
  · intro h
    cases h with
    | last hname hcolon hv hend =>
      unfold members
      simp only [hname, hcolon, hv, hend]
    | more hname hcolon hv hcomma hms =>
      unfold members
      simp only [hname, hcolon, hv, hcomma, hms]
      rfl

theorem items_eq_ok_iff {vs : List Value} :
    items d (fuel + 1) cs = .ok (vs, r) ↔ ReadsItems d fuel cs vs r := by
  constructor
  · intro h
    unfold items at h
    split at h
    · cases h
    · next v r₁ hv =>
      split at h
      · next r₂ hend =>
        cases h
        exact .last hv hend
      · next r₂ hcomma =>
        obtain ⟨⟨vs', t⟩, hvs, he⟩ := map_eq_ok h
        cases he
        exact .more hv hcomma hvs
      · cases h
  · intro h
    cases h with
    | last hv hend =>
      unfold items
      simp only [hv, hend]
    | more hv hcomma hvs =>
      unfold items
      simp only [hv, hcomma, hvs]
      rfl

end Stencil.Json
