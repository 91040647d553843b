import Mathlib.Data.List.TakeWhile
import Stencil.Proofs.Json.Step
import Stencil.Scope.Json

/-!
# `Stencil.Proofs.Json.FlatObject` — objects of strings as text

The reader of JSON runs on fuel and says nothing about the shape of what it accepts. This module says
it for the texts that parameters are written in, the objects of strings.

## Contents
- **Strings.** `Spells w points` is a grammar of the characters of a string. What is spelled is read, whatever comes
  behind it, and what is read has been spelled.
- **Shape.** `FlatObject text es` is a grammar: members in order, a name and a value each, with white
  space between the tokens. `FlatText` allows white space around the object.
- **Reading.** A text is read as a scope exactly if it has that shape (`ofJson?_eq_some_iff`), and reading decides
  whether it has (`flatText_iff`).
-/

namespace Stencil.Json

open Text

/-! ## Strings -/

theorem stringPoints_plain {c : Char} (hq : c ≠ '"') (hb : c ≠ '\\') (hc : ¬ c.toNat < 0x20)
    (opening : Nat) (cs : List Char) :
    stringPoints opening (c :: cs) = (stringPoints opening cs).map fun r => (c.toNat :: r.1, r.2) := by
  rw [stringPoints, if_neg hc] <;> simp [hq, hb]

theorem stringPoints_escape {c x : Char} (hu : c ≠ 'u') (hx : simpleEscape? c = some x)
    (opening : Nat) (cs : List Char) :
    stringPoints opening ('\\' :: c :: cs) =
      (stringPoints opening cs).map fun r => (x.toNat :: r.1, r.2) := by
  rw [stringPoints]
  · simp only [hx]
  all_goals simp [hu]

/-- The characters of a string behind its opening quote, the closing quote included, and the code points that they
    name. -/
inductive Spells : List Char → List Nat → Prop
  | close : Spells ['"'] []
  | plain {c : Char} {w : List Char} {ns : List Nat} (hq : c ≠ '"') (hb : c ≠ '\\') (hc : ¬ c.toNat < 0x20)
      (h : Spells w ns) : Spells (c :: w) (c.toNat :: ns)
  | letter {c x : Char} {w : List Char} {ns : List Nat} (hu : c ≠ 'u') (hx : simpleEscape? c = some x)
      (h : Spells w ns) : Spells ('\\' :: c :: w) (x.toNat :: ns)
  | code {a b c d : Char} {n : Nat} {w : List Char} {ns : List Nat} (hn : ofHexDigits? [a, b, c, d] = some n)
      (h : Spells w ns) : Spells ('\\' :: 'u' :: a :: b :: c :: d :: w) (n :: ns)

theorem Spells.ne_nil {w : List Char} {ns : List Nat} (h : Spells w ns) : w ≠ [] := by
  cases h <;> simp

/-- What is spelled is read, and what follows the closing quote has no part in it. -/
theorem Spells.stringPoints {w : List Char} {ns : List Nat} (h : Spells w ns) (opening : Nat) (rest : List Char) :
    stringPoints opening (w ++ rest) = .ok (ns, rest) := by
  induction h with
  | close => rw [List.singleton_append, Json.stringPoints]
  | plain hq hb hc h ih =>
    rw [List.cons_append, stringPoints_plain hq hb hc, ih]
    rfl
  | letter hu hx h ih =>
    rw [List.cons_append, List.cons_append, stringPoints_escape hu hx, ih]
    rfl
  | code hn h ih =>
    -- the reader looks at one character behind the digits, which is part of the string
    obtain ⟨x, xs, rfl⟩ := List.exists_cons_of_ne_nil h.ne_nil
    rw [List.cons_append] at ih
    simp only [List.cons_append, Json.stringPoints, hn, ih]
    rfl

/-- What is read has been spelled. -/
theorem exists_spells {opening : Nat} {cs r : List Char} {ns : List Nat} (h : stringPoints opening cs = .ok (ns, r)) :
    ∃ w, cs = w ++ r ∧ Spells w ns := by
  fun_induction stringPoints opening cs generalizing ns with
  | case1 => cases h
  | case2 cs =>
    cases h
    exact ⟨['"'], rfl, .close⟩
  | case3 a b c d e cs hn => cases h
  | case4 a b c d e cs n hn ih =>
    obtain ⟨⟨ms, t⟩, hrec, he⟩ := map_eq_ok h
    cases he
    obtain ⟨w, hcs, hw⟩ := ih hrec
    exact ⟨_, by rw [hcs]; rfl, .code hn hw⟩
  | case5 => cases h
  | case6 => cases h
  | case7 c cs hlong hshort x hx ih =>
    obtain ⟨⟨ms, t⟩, hrec, he⟩ := map_eq_ok h
    cases he
    obtain ⟨w, rfl, hw⟩ := ih hrec
    exact ⟨_, rfl, .letter hshort hx hw⟩
  | case8 => cases h
  | case9 => cases h
  | case10 c cs hq hlong hshort hesc hend hc ih =>
    obtain ⟨⟨ms, t⟩, hrec, he⟩ := map_eq_ok h
    cases he
    obtain ⟨w, rfl, hw⟩ := ih hrec
    have hb : c ≠ '\\' := fun hb => by
      obtain ⟨x, xs, rfl⟩ := List.exists_cons_of_ne_nil hw.ne_nil
      exact hesc x _ hb rfl
    exact ⟨_, rfl, .plain hq hb hc hw⟩

/-- The characters of a string behind its opening quote, the closing quote included. -/
def IsStringBody (w : List Char) (s : String) : Prop :=
  ∃ p : CodePoints, p.inBytes = s ∧ ∀ rest, stringBody .strict (w ++ rest) = .ok (p, rest)

theorem stringBody_eq_ok {cs r : List Char} {p : CodePoints} (h : stringBody .strict cs = .ok (p, r)) :
    ∃ w, cs = w ++ r ∧ IsStringBody w p.inBytes := by
  unfold stringBody at h
  split at h
  · cases h
  · next ns t hpoints =>
    obtain ⟨w, hcs, hw⟩ := exists_spells hpoints
    cases ht : (CodePoints.joined ⟨ns⟩).toString? with
    | none => simp only [ht] at h; cases h
    | some s =>
      simp only [ht] at h
      cases h
      refine ⟨w, hcs, _, rfl, fun rest => ?_⟩
      rw [stringBody, hw.stringPoints]
      simp only [ht]

/-- A string is spelled, and of its code points the halves that make a pair have been put together. -/
theorem IsStringBody.exists_spells {w : List Char} {s : String} (h : IsStringBody w s) :
    ∃ ns, Spells w ns ∧ (CodePoints.joined ⟨ns⟩).inBytes = s := by
  obtain ⟨p, rfl, hread⟩ := h
  have hbody := hread []
  unfold stringBody at hbody
  split at hbody
  · cases hbody
  · next ns t hpoints =>
    obtain ⟨v, hw, hv⟩ := Json.exists_spells hpoints
    cases ht : (CodePoints.joined ⟨ns⟩).toString? with
    | none => simp only [ht] at hbody; cases hbody
    | some s =>
      simp only [ht] at hbody
      cases hbody
      simp only [List.append_nil] at hw
      exact ⟨ns, hw ▸ hv, rfl⟩

/-! ## Shape -/

/-- White space between tokens. -/
def IsSpace (w : List Char) : Prop := ∀ c ∈ w, isJsonSpace c = true

/-- A member, name and value, as far as the comma or brace behind it. -/
inductive FlatMember : List Char → String × String → Prop
  | mk {n a b x c : List Char} {name value : String} (hn : IsStringBody n name) (ha : IsSpace a)
      (hb : IsSpace b) (hx : IsStringBody x value) (hc : IsSpace c) :
      FlatMember ('"' :: (n ++ (a ++ ':' :: (b ++ '"' :: (x ++ c))))) (name, value)

/-- Members from the first name on, up to the closing brace. -/
inductive FlatMembers : List Char → List (String × String) → Prop
  | last {w : List Char} {e : String × String} (hw : FlatMember w e) : FlatMembers (w ++ ['}']) [e]
  | more {w s ws : List Char} {e : String × String} {es : List (String × String)} (hw : FlatMember w e)
      (hs : IsSpace s) (hws : FlatMembers ws es) : FlatMembers (w ++ ',' :: (s ++ ws)) (e :: es)

/-- An object of strings. -/
inductive FlatObject : List Char → List (String × String) → Prop
  | empty {s : List Char} (hs : IsSpace s) : FlatObject ('{' :: (s ++ ['}'])) []
  | members {s ws : List Char} {es : List (String × String)} (hs : IsSpace s) (hws : FlatMembers ws es) :
      FlatObject ('{' :: (s ++ ws)) es

/-- An object of strings with white space around it. -/
def FlatText (text : List Char) (es : List (String × String)) : Prop :=
  ∃ a o b, IsSpace a ∧ IsSpace b ∧ text = a ++ (o ++ b) ∧ FlatObject o es

theorem isSpace_takeWhile (cs : List Char) : IsSpace (cs.takeWhile isJsonSpace) :=
  fun _ hc => List.mem_takeWhile_imp hc

theorem skipSpace_of_isSpace {w : List Char} (h : IsSpace w) : skipSpace w = [] :=
  List.dropWhile_eq_nil_iff.mpr h

theorem isSpace_of_skipSpace_eq_nil {w : List Char} (h : skipSpace w = []) : IsSpace w :=
  List.dropWhile_eq_nil_iff.mp h

/-- Skipping stops at the first character that is no white space. -/
theorem skipSpace_append {w : List Char} (h : IsSpace w) {c : Char} (hc : isJsonSpace c = false)
    (cs : List Char) : skipSpace (w ++ c :: cs) = c :: cs := by
  rw [skipSpace, List.dropWhile_append_of_pos h, List.dropWhile_cons_of_neg (by simp [hc])]

/-- What is skipped is white space. -/
theorem eq_append_skipSpace (cs : List Char) : ∃ w, IsSpace w ∧ cs = w ++ skipSpace cs :=
  ⟨_, isSpace_takeWhile cs, (List.takeWhile_append_dropWhile).symm⟩

theorem FlatMember.exists_cons {w : List Char} {e : String × String} (h : FlatMember w e) :
    ∃ cs, w = '"' :: cs := by
  cases h
  exact ⟨_, rfl⟩

theorem FlatMembers.exists_cons {w : List Char} {es : List (String × String)} (h : FlatMembers w es) :
    ∃ cs, w = '"' :: cs := by
  cases h with
  | last hw =>
    obtain ⟨cs, rfl⟩ := hw.exists_cons
    exact ⟨_, rfl⟩
  | more hw _ _ =>
    obtain ⟨cs, rfl⟩ := hw.exists_cons
    exact ⟨_, rfl⟩

/-- Every member takes a character. -/
theorem FlatMembers.length_le {w : List Char} {es : List (String × String)} (h : FlatMembers w es) :
    es.length ≤ w.length := by
  induction h with
  | last hw => simp
  | more hw hs hws ih =>
    simp only [List.length_cons, List.length_append] at *
    omega

theorem FlatObject.exists_cons {o : List Char} {es : List (String × String)} (h : FlatObject o es) :
    ∃ cs, o = '{' :: cs := by
  cases h <;> exact ⟨_, rfl⟩

theorem FlatMembers.getLast? {w : List Char} {es : List (String × String)} (h : FlatMembers w es) :
    w.getLast? = some '}' := by
  induction h with
  | last hw => exact List.getLast?_concat
  | more hw hs hws ih => simp [List.getLast?_append, List.getLast?_cons, ih]

theorem FlatObject.getLast? {o : List Char} {es : List (String × String)} (h : FlatObject o es) :
    o.getLast? = some '}' := by
  cases h with
  | empty hs => simp [List.getLast?_cons]
  | members hs hws => simp [List.getLast?_cons, List.getLast?_append, hws.getLast?]

theorem FlatObject.length_le {o : List Char} {es : List (String × String)} (h : FlatObject o es) :
    es.length ≤ o.length := by
  cases h with
  | empty hs => simp
  | members hs hws =>
    have := hws.length_le
    simp only [List.length_cons, List.length_append]
    omega

theorem FlatText.ne_nil {text : List Char} {es : List (String × String)} (h : FlatText text es) : text ≠ [] := by
  obtain ⟨a, o, b, -, -, rfl, ho⟩ := h
  obtain ⟨cs, rfl⟩ := ho.exists_cons
  simp

/-! ## Reading -/

/-- A value that can be read from a word or a numeral. -/
def IsAtom : Value → Prop
  | .string _ => False
  | .array _ => False
  | .object _ => False
  | _ => True

theorem isAtom_of_literal? {cs r : List Char} {v : Value} (h : literal? cs = some (v, r)) : IsAtom v := by
  unfold literal? at h
  split at h <;> cases h <;> trivial

theorem isAtom_of_unsigned {d : Dialect} {length : Nat} {negative : Bool} {cs r : List Char} {v : Value}
    (h : unsigned d length negative cs = .ok (v, r)) : IsAtom v := by
  unfold unsigned at h
  split at h
  · cases h
  · simp only at h
    split at h
    · cases h
    · split at h
      · split at h <;> cases h
        trivial
      · cases h
        trivial

theorem isAtom_of_number {d : Dialect} {cs r : List Char} {v : Value} (h : number d cs = .ok (v, r)) :
    IsAtom v := by
  unfold number at h
  split at h
  · cases h; trivial
  · cases h; trivial
  · cases h; trivial
  · split at h <;> exact isAtom_of_unsigned h

theorem IsAtom.textMap_ne_ok {v : Value} (h : IsAtom v) (es : List (String × String)) :
    Check.textMap v ≠ .ok es := by
  cases v with
  | object ms => exact h.elim
  | _ => simp [Check.textMap, Checked.problem]

/-- A value that is a string has been read from one. -/
theorem value_eq_string {fuel : Nat} {cs r : List Char} {s : String}
    (h : value .strict fuel cs = .ok (.string s, r)) : ∃ w, cs = '"' :: (w ++ r) ∧ IsStringBody w s := by
  cases fuel with
  | zero => simp [value] at h
  | succ fuel =>
    cases value_eq_ok_iff.mp h with
    | string hbody =>
      obtain ⟨w, hcs, hw⟩ := stringBody_eq_ok hbody
      exact ⟨w, by rw [hcs], hw⟩
    | literal hstart hlit => exact (isAtom_of_literal? hlit).elim
    | number hstart hnone hnum => exact (isAtom_of_number hnum).elim

/-- A string is read as a value. -/
theorem value_string {w : List Char} {s : String} (h : IsStringBody w s) (fuel : Nat) (rest : List Char) :
    value .strict (fuel + 1) ('"' :: (w ++ rest)) = .ok (.string s, rest) := by
  obtain ⟨p, rfl, hread⟩ := h
  unfold value
  simp only [hread]
  rfl

theorem textMembers_cons_eq_ok {name : String} {v : Value} {ms : List (String × Value)}
    {es : List (String × String)} (h : Check.textMembers ((name, v) :: ms) = .ok es) :
    ∃ s es', v = .string s ∧ Check.textMembers ms = .ok es' ∧ es = (name, s) :: es' := by
  cases v with
  | string s =>
    cases hms : Check.textMembers ms with
    | ok es' =>
      simp only [Check.textMembers, Check.text, hms, Checked.within_ok, Checked.map, Checked.ap] at h
      cases h
      exact ⟨s, es', rfl, rfl, rfl⟩
    | failed is =>
      simp only [Check.textMembers, Check.text, hms, Checked.within_ok, Checked.map, Checked.ap] at h
      cases h
  | _ =>
    cases hms : Check.textMembers ms <;>
      simp [Check.textMembers, Check.text, hms, Checked.problem, Checked.within, Checked.map, Checked.ap] at h

theorem textMembers_nil_eq_ok {es : List (String × String)} (h : Check.textMembers [] = .ok es) : es = [] := by
  cases h
  rfl

/-- **Members have the shape that is read.** -/
theorem members_eq_ok {fuel : Nat} {cs r : List Char} {ms : List (CodePoints × Value)}
    {es : List (String × String)} (h : members .strict fuel cs = .ok (ms, r))
    (hes : Check.textMembers (ms.map fun m => (m.1.inBytes, m.2)) = .ok es) :
    ∃ w, cs = w ++ r ∧ FlatMembers w es := by
  induction fuel generalizing cs r ms es with
  | zero => simp [members] at h
  | succ fuel ih =>
    cases members_eq_ok_iff.mp h with
    | @last _ r₁ r₂ r₃ _ name v hname hcolon hv hend =>
      obtain ⟨n, rfl, hn⟩ := stringBody_eq_ok hname
      obtain ⟨a, ha, hra⟩ := eq_append_skipSpace r₁
      obtain ⟨b, hb, hrb⟩ := eq_append_skipSpace r₂
      obtain ⟨c, hc, hrc⟩ := eq_append_skipSpace r₃
      obtain ⟨s, es', rfl, hnil, rfl⟩ := textMembers_cons_eq_ok hes
      obtain rfl := textMembers_nil_eq_ok hnil
      obtain ⟨x, hval, hx⟩ := value_eq_string hv
      refine ⟨_, ?_, .last (.mk hn ha hb hx hc)⟩
      rw [hra, hcolon, hrb, hval, hrc, hend]
      simp
    | @more _ r₁ r₂ r₃ r₄ _ name v ms' hname hcolon hv hcomma hms =>
      obtain ⟨n, rfl, hn⟩ := stringBody_eq_ok hname
      obtain ⟨a, ha, hra⟩ := eq_append_skipSpace r₁
      obtain ⟨b, hb, hrb⟩ := eq_append_skipSpace r₂
      obtain ⟨c, hc, hrc⟩ := eq_append_skipSpace r₃
      obtain ⟨s, es', rfl, hrest, rfl⟩ := textMembers_cons_eq_ok hes
      obtain ⟨x, hval, hx⟩ := value_eq_string hv
      obtain ⟨w, hw, hws⟩ := ih hms hrest
      obtain ⟨z, hz, hrz⟩ := eq_append_skipSpace r₄
      refine ⟨_, ?_, .more (.mk hn ha hb hx hc) hz hws⟩
      rw [hra, hcolon, hrb, hval, hrc, hcomma, hrz, hw]
      simp

/-- A member is read as far as the comma or brace behind it. -/
theorem members_of_flatMember {w : List Char} {e : String × String} (h : FlatMember w e) (fuel : Nat)
    {c : Char} (hc : isJsonSpace c = false) (cs : List Char) :
    ∃ p : CodePoints, p.inBytes = e.1 ∧ members .strict (fuel + 2) (w ++ c :: cs) =
      match c :: cs with
      | '}' :: r => .ok ([(p, .string e.2)], r)
      | ',' :: r => (members .strict (fuel + 1) (skipSpace r)).map fun q => ((p, .string e.2) :: q.1, q.2)
      | r => .error ⟨.expectingComma, r.length⟩ := by
  cases h with
  | mk hn ha hb hx hs =>
    obtain ⟨p, rfl, hread⟩ := hn
    refine ⟨p, rfl, ?_⟩
    conv => lhs; unfold members
    simp only [List.cons_append, List.append_assoc, hread]
    rw [skipSpace_append ha (by decide)]
    simp only
    rw [skipSpace_append hb (by decide), value_string hx]
    simp only
    rewrite [skipSpace_append hs hc]
    rfl

/-- **What has the shape is read**, with fuel for one call more than there are members. -/
theorem members_of_flatMembers {w : List Char} {es : List (String × String)} (h : FlatMembers w es)
    {fuel : Nat} (hfuel : es.length < fuel) (rest : List Char) :
    ∃ ms, members .strict fuel (w ++ rest) = .ok (ms, rest) ∧
      (ms.map fun m => (m.1.inBytes, m.2)) = es.map fun e => (e.1, .string e.2) := by
  induction h generalizing fuel with
  | @last w e hw =>
    obtain ⟨k, rfl⟩ : ∃ k, fuel = k + 2 := ⟨fuel - 2, by simp at hfuel; omega⟩
    obtain ⟨p, hp, hread⟩ := members_of_flatMember hw k (c := '}') (by decide) rest
    refine ⟨[(p, .string e.2)], ?_, by simp [hp]⟩
    rw [List.append_assoc]
    exact hread
  | @more w s ws e es hw hs hws ih =>
    obtain ⟨k, rfl⟩ : ∃ k, fuel = k + 2 := ⟨fuel - 2, by simp at hfuel; omega⟩
    obtain ⟨p, hp, hread⟩ := members_of_flatMember hw k (c := ',') (by decide) (s ++ (ws ++ rest))
    have hlt : es.length < k + 1 := by simp at hfuel; omega
    obtain ⟨ms, hms, hmap⟩ := ih hlt
    obtain ⟨cs, rfl⟩ := hws.exists_cons
    refine ⟨(p, .string e.2) :: ms, ?_, by simp [hp, hmap]⟩
    rw [List.append_assoc, List.cons_append, List.append_assoc, hread]
    simp only [List.cons_append] at hms ⊢
    rw [skipSpace_append hs (by decide), hms]
    rfl

/-- An object of strings has the shape that is read. -/
theorem value_eq_object {fuel : Nat} {cs r : List Char} {v : Value} {es : List (String × String)}
    (h : value .strict fuel cs = .ok (v, r)) (hes : Check.textMap v = .ok es) :
    ∃ o, cs = o ++ r ∧ FlatObject o es := by
  cases fuel with
  | zero => simp [value] at h
  | succ fuel =>
    cases value_eq_ok_iff.mp h with
    | string hbody => cases hes
    | @emptyObject t _ hend =>
      obtain ⟨s, hs, ht⟩ := eq_append_skipSpace t
      obtain rfl := textMembers_nil_eq_ok hes
      exact ⟨_, by rw [ht, hend]; simp, .empty hs⟩
    | @object t _ ms hopen hms =>
      obtain ⟨s, hs, ht⟩ := eq_append_skipSpace t
      obtain ⟨w, hw, hws⟩ := members_eq_ok hms hes
      exact ⟨_, by rw [ht, hw]; simp, .members hs hws⟩
    | emptyArray hend => cases hes
    | array hopen hvs => cases hes
    | literal hstart hlit => exact absurd hes ((isAtom_of_literal? hlit).textMap_ne_ok es)
    | number hstart hnone hnum => exact absurd hes ((isAtom_of_number hnum).textMap_ne_ok es)

/-- What has the shape is read as an object of strings. -/
theorem value_of_flatObject {o : List Char} {es : List (String × String)} (h : FlatObject o es)
    {fuel : Nat} (hfuel : es.length + 1 < fuel) (rest : List Char) :
    value .strict fuel (o ++ rest) = .ok (.object (es.map fun e => (e.1, .string e.2)), rest) := by
  obtain ⟨k, rfl⟩ : ∃ k, fuel = k + 1 := ⟨fuel - 1, by omega⟩
  cases h with
  | empty hs =>
    unfold value
    simp only [List.cons_append, List.append_assoc, List.nil_append]
    rw [skipSpace_append hs (by decide)]
    rfl
  | members hs hws =>
    have hlt : es.length < k := by omega
    obtain ⟨ms, hms, hmap⟩ := members_of_flatMembers hws hlt rest
    obtain ⟨cs, rfl⟩ := hws.exists_cons
    unfold value
    simp only [List.cons_append, List.append_assoc] at hms ⊢
    rw [skipSpace_append hs (by decide)]
    show (members .strict k ('"' :: (cs ++ rest))).map (fun q => (objectOf .strict q.1, q.2)) = _
    rw [hms, ← hmap]
    rfl

theorem parse_of_flatText {text : List Char} {es : List (String × String)} (h : FlatText text es) :
    parse .strict text = .ok (.object (es.map fun e => (e.1, .string e.2))) := by
  obtain ⟨a, o, b, ha, hb, rfl, hobj⟩ := h
  have hbom : ∀ cs, a ++ (o ++ b) ≠ '\ufeff' :: cs := by
    intro cs hcs
    cases a with
    | nil =>
      obtain ⟨t, rfl⟩ := hobj.exists_cons
      exact absurd (List.cons.inj hcs).1 (by decide)
    | cons c a =>
      have hc := ha c List.mem_cons_self
      rw [(List.cons.inj hcs).1] at hc
      exact absurd hc (by decide)
  have hskip : skipSpace (a ++ (o ++ b)) = o ++ b := by
    obtain ⟨t, rfl⟩ := hobj.exists_cons
    exact skipSpace_append ha (by decide) (t ++ b)
  have hfuel : es.length + 1 < 2 * (a ++ (o ++ b)).length + 2 := by
    have := hobj.length_le
    simp only [List.length_append]
    omega
  have hvalue := value_of_flatObject hobj hfuel b
  unfold parse
  split
  · next cs heq => exact absurd heq (hbom cs)
  · rw [hskip, hvalue]
    simp only [skipSpace_of_isSpace hb]
    have hflat : (Value.object (es.map fun e => (e.1, .string e.2))).nesting ≤ maxNesting :=
      Nat.le_trans (Value.nestingMembers_strings es) (by decide)
    exact if_neg fun h => absurd h.2 (Nat.not_lt.mpr hflat)

theorem flatText_of_parse {text : List Char} {v : Value} {es : List (String × String)}
    (h : parse .strict text = .ok v) (hes : Check.textMap v = .ok es) : FlatText text es := by
  unfold parse at h
  split at h
  · cases h
  · split at h
    · cases h
    · next v' r hv =>
      split at h
      · next hr =>
        split at h
        · cases h
        · cases h
          obtain ⟨a, ha, hta⟩ := eq_append_skipSpace text
          obtain ⟨o, ho, hobj⟩ := value_eq_object hv hes
          exact ⟨a, o, r, ha, isSpace_of_skipSpace_eq_nil hr, by rw [← ho, ← hta], hobj⟩
      · cases h

/-- Reading a text tells whether it has the shape. -/
theorem flatText_iff {text : List Char} {es : List (String × String)} :
    FlatText text es ↔ (parse .strict text).toOption.map (fun v => (Check.textMap v).toExcept) = some (.ok es) := by
  constructor
  · intro h
    rw [parse_of_flatText h]
    show some (Check.textMembers _).toExcept = some (.ok es)
    rw [Scope.textMembers_map]
    rfl
  · intro h
    obtain ⟨v, hv, hes⟩ := Option.map_eq_some_iff.mp h
    cases hparse : parse .strict text with
    | error e =>
      rw [hparse] at hv
      cases hv
    | ok w =>
      rw [hparse] at hv
      cases hv
      cases hmap : Check.textMap v with
      | failed issues =>
        rw [hmap] at hes
        cases hes
      | ok es' =>
        rw [hmap] at hes
        cases hes
        exact flatText_of_parse hparse hmap

instance (text : List Char) (es : List (String × String)) : Decidable (FlatText text es) :=
  decidable_of_iff _ flatText_iff.symm

end Stencil.Json

namespace Stencil.Scope

open Json

/-- **A text is read as a scope exactly if it is an object of strings**, with white space around it. -/
theorem ofJson?_eq_some_iff {text : List Char} {s : Scope} :
    ofJson? text = some s ↔ ∃ es, FlatText text es ∧ ofList es = s := by
  constructor
  · intro h
    unfold ofJson? at h
    split at h
    · cases h
    · next v hv =>
      split at h
      · next s' hs =>
        cases h
        unfold check at hs
        cases hes : Check.textMap v with
        | ok es =>
          rw [hes] at hs
          cases hs
          exact ⟨es, flatText_of_parse hv hes, rfl⟩
        | failed is =>
          rw [hes] at hs
          cases hs
      · cases h
  · rintro ⟨es, htext, rfl⟩
    rw [ofJson?, parse_of_flatText htext]
    simp only [check, Check.textMap, textMembers_map, Checked.map]

/-- A text that is read as a scope is an object in braces, which is read alike, with white space around it. -/
theorem exists_braces_of_ofJson? {text : List Char} {s : Scope} (h : ofJson? text = some s) :
    ∃ a o b, IsSpace a ∧ IsSpace b ∧ text = a ++ (o ++ b) ∧ o.head? = some '{' ∧
      o.getLast? = some '}' ∧ ofJson? o = some s := by
  obtain ⟨es, ⟨a, o, b, ha, hb, rfl, ho⟩, hs⟩ := ofJson?_eq_some_iff.mp h
  have hnil : IsSpace [] := by simp [IsSpace]
  have hread : ofJson? o = some s :=
    ofJson?_eq_some_iff.mpr ⟨es, ⟨[], o, [], hnil, hnil, by simp, ho⟩, hs⟩
  obtain ⟨cs, rfl⟩ := ho.exists_cons
  exact ⟨a, _, b, ha, hb, rfl, rfl, ho.getLast?, hread⟩

/-- A text that starts with anything but white space or a brace is not read as a scope. -/
theorem ofJson?_cons_eq_none {c : Char} (hspace : isJsonSpace c = false) (hbrace : c ≠ '{') (cs : List Char) :
    ofJson? (c :: cs) = none := by
  rw [Option.eq_none_iff_forall_ne_some]
  intro s h
  obtain ⟨a, o, b, ha, -, htext, ho, -, -⟩ := exists_braces_of_ofJson? h
  cases a with
  | nil =>
    obtain ⟨t, rfl⟩ := List.head?_eq_some_iff.mp ho
    exact hbrace (List.cons.inj htext).1
  | cons d a =>
    have hd := ha d List.mem_cons_self
    rw [← (List.cons.inj htext).1, hspace] at hd
    exact absurd hd (by decide)

end Stencil.Scope
