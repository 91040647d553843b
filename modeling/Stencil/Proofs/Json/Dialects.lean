import Mathlib.Data.List.Induction
import Stencil.Proofs.Json.RoundTrip

/-!
# `Stencil.Proofs.Json.Dialects` — what is read strictly is read leniently

The two dialects differ in what they refuse and in what they make of a name that comes again in an object. So
a text that is read strictly is read leniently too, as the same value but for repeated names. The converse
fails: half of a surrogate pair, or a double with a long whole part, is read leniently only.

## Contents
- **Code points.** Hexadecimal digits write a bounded number, and what is read between quotes is bounded by the last
  code point there is; without halves of surrogate pairs it is a text.
- **Strings.** A string that is read strictly is a text, and is read leniently as that text.
- **Collapsed values.** In `Value.collapsed` every object has a name once, at the first position and with the last
  value.
- **Reading.** `value_lenient`, by induction on the fuel, and with it members and items; `parse_lenient` for whole
  texts.
-/

namespace Stencil.Text

/-! ## Code points -/

/-- Hexadecimal digits write a number below the power of their count. -/
theorem ofHexDigits?_lt {ds : List Char} {n : Nat} (h : ofHexDigits? ds = some n) : n < 16 ^ ds.length := by
  induction ds using List.reverseRecOn generalizing n with
  | nil =>
    cases h
    exact Nat.one_pos
  | append_singleton ds d ih =>
    rw [Json.ofHexDigits?_concat] at h
    obtain ⟨m, hm, h⟩ := Option.bind_eq_some_iff.mp h
    obtain ⟨v, hv, rfl⟩ := Option.map_eq_some_iff.mp h
    have hlow := hexValue?_lt hv
    have hhigh := ih hm
    rw [List.length_append, List.length_singleton, Nat.pow_succ]
    omega

/-- Only hexadecimal digits write a number. -/
theorem isSome_hexValue?_of_mem {ds : List Char} {n : Nat} (h : ofHexDigits? ds = some n) {d : Char} (hd : d ∈ ds) :
    (hexValue? d).isSome = true := by
  induction ds using List.reverseRecOn generalizing n with
  | nil => cases hd
  | append_singleton ds x ih =>
    rw [Json.ofHexDigits?_concat] at h
    obtain ⟨m, hm, h⟩ := Option.bind_eq_some_iff.mp h
    obtain ⟨v, hv, -⟩ := Option.map_eq_some_iff.mp h
    rcases List.mem_append.mp hd with hd | hd
    · exact ih hm hd
    · rw [List.mem_singleton.mp hd, hv]
      rfl

namespace CodePoints

/-- Code points, not beyond the last one there is. -/
def Bounded (ns : List Nat) : Prop := ∀ n ∈ ns, n < 0x110000

theorem bounded_cons {n : Nat} {ns : List Nat} (hn : n < 0x110000) (h : Bounded ns) : Bounded (n :: ns) :=
  List.forall_mem_cons.mpr ⟨hn, h⟩

theorem lt_of_char (c : Char) : c.toNat < 0x110000 := by
  have h : c.toNat < 0xD800 ∨ 0xDFFF < c.toNat ∧ c.toNat < 0x110000 := c.valid
  omega

theorem bounded_joinPairs {ns : List Nat} (h : Bounded ns) : Bounded (joinPairs ns) := by
  fun_induction joinPairs ns with
  | case1 n m ns hpair ih =>
    obtain ⟨-, h⟩ := List.forall_mem_cons.mp h
    obtain ⟨-, h⟩ := List.forall_mem_cons.mp h
    have hmade : ofPair n m < 0x110000 := by
      simp only [isHighSurrogate, isLowSurrogate, Bool.and_eq_true, decide_eq_true_eq] at hpair
      unfold ofPair
      omega
    exact bounded_cons hmade (ih h)
  | case2 n m ns hpair ih =>
    obtain ⟨hn, h⟩ := List.forall_mem_cons.mp h
    exact bounded_cons hn (ih h)
  | case3 ns => exact h

/-- Bounded code points without halves are those of a text. -/
theorem exists_ofString {p : CodePoints} (hp : Bounded p.points) {t : String} (h : p.toString? = some t) :
    ∃ s, p = ofString s := by
  refine ⟨String.ofList (p.points.map Char.ofNat), ?_⟩
  have hhalf : p.points.any isHalf = false := by
    unfold toString? at h
    split at h
    · cases h
    · next hnone => simpa using hnone
  have hback : ∀ n ∈ p.points, (Char.ofNat n).toNat = n := by
    intro n hn
    have hnot : isHalf n = false := by simpa using List.any_eq_false.mp hhalf n hn
    have hlt := hp n hn
    have hvalid : n.isValidChar := by
      simp only [isHalf, isHighSurrogate, isLowSurrogate, Bool.or_eq_false_iff, Bool.and_eq_false_iff,
        decide_eq_false_iff_not] at hnot
      unfold Nat.isValidChar
      omega
    rw [Char.ofNat, dif_pos hvalid]
    rfl
  have hmap : p.points.map (Char.toNat ∘ Char.ofNat) = p.points :=
    (List.map_congr_left hback).trans (List.map_id p.points)
  rw [ofString, ofList, String.toList_ofList, List.map_map, hmap]

theorem ofString_inj {s t : String} (h : ofString s = ofString t) : s = t := by
  have htext := congrArg toString? h
  rw [toString?_ofString, toString?_ofString] at htext
  exact Option.some.inj htext

end CodePoints

end Stencil.Text

namespace Stencil.Json

open Number Text

/-! ## Strings -/

theorem bounded_stringPoints {opening : Nat} {cs r : List Char} {ns : List Nat}
    (h : stringPoints opening cs = .ok (ns, r)) : CodePoints.Bounded ns := by
  fun_induction stringPoints opening cs generalizing ns with
  | case1 => cases h
  | case2 cs =>
    cases h
    exact List.forall_mem_nil _
  | case3 a b c d e cs hn => cases h
  | case4 a b c d e cs n hn ih =>
    obtain ⟨⟨ms, t⟩, hrec, he⟩ := map_eq_ok h
    cases he
    have hlt : n < 16 ^ 4 := ofHexDigits?_lt hn
    exact CodePoints.bounded_cons (by omega) (ih hrec)
  | case5 => cases h
  | case6 => cases h
  | case7 c cs hlong hshort x hx ih =>
    obtain ⟨⟨ms, t⟩, hrec, he⟩ := map_eq_ok h
    cases he
    exact CodePoints.bounded_cons (CodePoints.lt_of_char x) (ih hrec)
  | case8 => cases h
  | case9 => cases h
  | case10 c cs hq hlong hshort hesc hend hc ih =>
    obtain ⟨⟨ms, t⟩, hrec, he⟩ := map_eq_ok h
    cases he
    exact CodePoints.bounded_cons (CodePoints.lt_of_char c) (ih hrec)

/-- **A string that is read strictly is a text**, and is read leniently as well. -/
theorem stringBody_lenient {cs r : List Char} {p : CodePoints} (h : stringBody .strict cs = .ok (p, r)) :
    (∃ s, p = CodePoints.ofString s) ∧ stringBody .lenient cs = .ok (p, r) := by
  unfold stringBody at h ⊢
  cases hpoints : stringPoints (cs.length + 1) cs with
  | error e =>
    rw [hpoints] at h
    cases h
  | ok q =>
    obtain ⟨ns, t⟩ := q
    rw [hpoints] at h
    dsimp only at h ⊢
    cases htext : (CodePoints.joined ⟨ns⟩).toString? with
    | none =>
      rw [htext] at h
      cases h
    | some s =>
      rw [htext] at h
      cases h
      exact ⟨CodePoints.exists_ofString (CodePoints.bounded_joinPairs (bounded_stringPoints hpoints)) htext, rfl⟩

/-! ## Collapsed values -/

namespace Value

mutual

/-- The value with each name once in every object: at its first position, with its last value. -/
def collapsed : Value → Value
  | .null => .null
  | .bool b => .bool b
  | .int n => .int n
  | .float d => .float d
  | .string s => .string s
  | .array items => .array (collapsedItems items)
  | .object members => .object (Entries.collapse (collapsedMembers members))

/-- The same for items. -/
def collapsedItems : List Value → List Value
  | [] => []
  | v :: vs => collapsed v :: collapsedItems vs

/-- The same for the values of members. -/
def collapsedMembers : List (String × Value) → List (String × Value)
  | [] => []
  | (name, v) :: ms => (name, collapsed v) :: collapsedMembers ms

end

theorem collapsedItems_strings (ss : List String) : collapsedItems (ss.map .string) = ss.map .string := by
  induction ss with
  | nil => rw [List.map_nil, collapsedItems]
  | cons s ss ih => rw [List.map_cons, collapsedItems, collapsed, ih]

theorem collapsed_of_isAtom {v : Value} (h : IsAtom v) : v.collapsed = v := by
  cases v with
  | string s => exact h.elim
  | array vs => exact h.elim
  | object ms => exact h.elim
  | _ => rw [collapsed]

end Value

/-! ## Reading -/

theorem unsigned_lenient {length : Nat} {negative : Bool} {cs r : List Char} {v : Value}
    (h : unsigned .strict length negative cs = .ok (v, r)) : unsigned .lenient length negative cs = .ok (v, r) := by
  unfold unsigned at h ⊢
  cases hwhole : wholePart? cs with
  | none =>
    rw [hwhole] at h
    cases h
  | some p =>
    rw [hwhole] at h
    dsimp only at h ⊢
    split at h
    · cases h
    · rw [if_neg (by simp)]
      exact h

theorem number_lenient {cs r : List Char} {v : Value} (h : number .strict cs = .ok (v, r)) :
    number .lenient cs = .ok (v, r) := by
  unfold number at h ⊢
  split at h
  · simpa using h
  · simpa using h
  · simpa using h
  · split at h
    · exact unsigned_lenient h
    · exact unsigned_lenient h

/-- Leniently, an object of texts is collapsed. -/
theorem objectOf_lenient_ofString (ms : List (String × Value)) :
    objectOf .lenient (ms.map fun m => (CodePoints.ofString m.1, m.2)) = .object (Entries.collapse ms) := by
  have hcollapse : Entries.collapse (ms.map fun m => (CodePoints.ofString m.1, m.2)) =
      (Entries.collapse ms).map fun m => (CodePoints.ofString m.1, m.2) :=
    Entries.collapse_map (fun _ _ => CodePoints.ofString_inj) id ms
  unfold objectOf
  dsimp only
  rw [hcollapse]
  simp [Function.comp_def]

mutual

/-- **What is read strictly is read leniently**, collapsed. -/
theorem value_lenient : (fuel : Nat) → {cs r : List Char} → {v : Value} →
    value .strict fuel cs = .ok (v, r) → value .lenient fuel cs = .ok (v.collapsed, r)
  | 0, _, _, _, h => by simp [value] at h
  | fuel + 1, _, _, _, h => by
    rw [value_eq_ok_iff] at h ⊢
    cases h with
    | string hbody =>
      rw [Value.collapsed]
      exact .string (stringBody_lenient hbody).2
    | emptyObject hend => exact .emptyObject hend
    | object hopen hms =>
      obtain ⟨ns, rfl, hns⟩ := members_lenient fuel hms
      rw [objectOf_ofString, Value.collapsed, ← objectOf_lenient_ofString]
      exact .object hopen hns
    | emptyArray hend => exact .emptyArray hend
    | array hopen hvs =>
      rw [Value.collapsed]
      exact .array hopen (items_lenient fuel hvs)
    | literal hstart hlit =>
      rw [Value.collapsed_of_isAtom (isAtom_of_literal? hlit)]
      exact .literal hstart hlit
    | number hstart hnone hnum =>
      rw [Value.collapsed_of_isAtom (isAtom_of_number hnum)]
      exact .number hstart hnone (number_lenient hnum)

theorem members_lenient : (fuel : Nat) → {cs r : List Char} → {ms : List (CodePoints × Value)} →
    members .strict fuel cs = .ok (ms, r) →
      ∃ ns : List (String × Value), ms = (ns.map fun m => (CodePoints.ofString m.1, m.2)) ∧
        members .lenient fuel cs =
          .ok ((Value.collapsedMembers ns).map fun m => (CodePoints.ofString m.1, m.2), r)
  | 0, _, _, _, h => by simp [members] at h
  | fuel + 1, _, _, _, h => by
    rw [members_eq_ok_iff] at h
    cases h with
    | @last _ _ _ _ _ _ v hname hcolon hv hend =>
      obtain ⟨⟨name, rfl⟩, hname⟩ := stringBody_lenient hname
      refine ⟨[(name, v)], rfl, members_eq_ok_iff.mpr ?_⟩
      exact .last hname hcolon (value_lenient fuel hv) hend
    | @more _ _ _ _ _ _ _ v _ hname hcolon hv hcomma hms =>
      obtain ⟨⟨name, rfl⟩, hname⟩ := stringBody_lenient hname
      obtain ⟨ns, rfl, hns⟩ := members_lenient fuel hms
      refine ⟨(name, v) :: ns, rfl, members_eq_ok_iff.mpr ?_⟩
      exact .more hname hcolon (value_lenient fuel hv) hcomma hns

theorem items_lenient : (fuel : Nat) → {cs r : List Char} → {vs : List Value} →
    items .strict fuel cs = .ok (vs, r) → items .lenient fuel cs = .ok (Value.collapsedItems vs, r)
  | 0, _, _, _, h => by simp [items] at h
  | fuel + 1, _, _, _, h => by
    rw [items_eq_ok_iff] at h ⊢
    cases h with
    | last hv hend => exact .last (value_lenient fuel hv) hend
    | more hv hcomma hvs => exact .more (value_lenient fuel hv) hcomma (items_lenient fuel hvs)

end

/-- **A text that is read strictly is read leniently**, as the same value with each name once in every object. -/
theorem parse_lenient {text : List Char} {v : Value} (h : parse .strict text = .ok v) :
    parse .lenient text = .ok v.collapsed := by
  unfold parse at h ⊢
  split at h
  · cases h
  · split at h
    · cases h
    · next w r hv =>
      rw [value_lenient _ hv]
      split at h
      · next hend =>
        simp only [hend]
        split at h
        · cases h
        · cases h
          exact if_neg (by simp)
      · cases h

/-- **The text of a value is read leniently as that value**, with each name once in every object and however deeply it
    is nested, if it has short integers and no doubles. -/
theorem parse_lenient_text (style : Style) {v : Value} (hexact : v.all Value.isExact = true)
    (hshort : v.all Value.isShort = true) : parse .lenient (v.text style).toList = .ok v.collapsed := by
  have hvalue := value_text style hexact
  rw [if_pos hshort] at hvalue
  have hstrict : value .strict (2 * (v.text style).toList.length + 2) (skipSpace (v.text style).toList) =
      .ok (v, []) := by
    cases hread : value .strict (2 * (v.text style).toList.length + 2) (skipSpace (v.text style).toList) with
    | error e => rw [hread] at hvalue; cases hvalue
    | ok p => rw [hread] at hvalue; cases hvalue; rfl
  unfold parse
  split
  · next cs heq => exact absurd heq (text_ne_byteOrderMark style hexact cs)
  · rw [value_lenient _ hstrict]
    exact if_neg (by simp)

end Stencil.Json
