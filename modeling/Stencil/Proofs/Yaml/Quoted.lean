import Mathlib.Data.List.Infix
import Stencil.Proofs.Json.Dialects
import Stencil.Proofs.Yaml.Cursor
import Stencil.Yaml.Scalar

/-!
# `Stencil.Proofs.Yaml.Quoted` — strings of JSON as quoted scalars of YAML

The double quotes of YAML know every escape that JSON has, and more. What they do not do is to put the halves of a
surrogate pair together, and they fold the line breaks of YAML.

## Contents
- **Escapes.** Each escape of JSON stands for the same code point.
- **Line breaks.** `IsUnfolded` says that a string keeps the line breaks in it, and the spaces.
- **Stretches.** Spaces, or several LS and PS, are read by one call.
- **Strings.** A string of JSON is read as a quoted scalar with the same code points (`quoted_of_spells`).
-/

namespace Stencil.Yaml

open Text Json

/-! ## Escapes -/

theorem simpleEscape?_of_json {c x : Char} (h : Json.simpleEscape? c = some x) : simpleEscape? c = some x := by
  unfold Json.simpleEscape? at h
  split at h <;> cases h <;> rfl

/-- An escape by a letter, whose backslash has been passed. -/
theorem escape_letter {c : Cursor} {y x : Char} {r : List Char} (h : c.rest = y :: r)
    (hx : Json.simpleEscape? y = some x) : escape c = .ok ([x.toNat], c.next) := by
  have hpeek : c.peek = some y := by rw [Cursor.peek_zero, h]; rfl
  simp only [escape, hpeek, simpleEscape?_of_json hx]

/-- An escape by four digits, whose backslash has been passed. -/
theorem escape_code {cur : Cursor} {a b c d : Char} {n : Nat} {r : List Char}
    (h : cur.rest = 'u' :: a :: b :: c :: d :: r) (hn : ofHexDigits? [a, b, c, d] = some n) :
    escape cur = .ok ([n], cur.advance 5) := by
  have hpeek : cur.peek = some 'u' := by rw [Cursor.peek_zero, h]; rfl
  have hdigits : cur.next.rest.take 4 = [a, b, c, d] := by rw [Cursor.rest_next, h]; rfl
  have hfour : n < 16 ^ 4 := ofHexDigits?_lt hn
  have hlt : n < 0x110000 := by omega
  have hcode : codeEscape 4 cur.next = .ok (n, cur.next.advance 4) := by
    simp only [codeEscape, hdigits, hn, hlt, if_true]
    rfl
  simp only [escape, hpeek, show simpleEscape? 'u' = none from rfl, show codeLength? 'u' = some 4 from rfl, hcode]
  rfl

/-! ## Line breaks -/

/-- LS or PS, the line breaks that YAML keeps. -/
def isSeparator (x : Char) : Bool := x == '\u2028' || x == '\u2029'

/-- Whether what comes next is folded or refused: NEL becomes a space or LF, a space beside LS or PS is dropped, and a
    document marker behind these is an error. -/
def isFolded : List Char → Bool
  | [] => false
  | x :: cs =>
    x == '\x85' || (x == ' ' && cs.head?.any isSeparator) ||
      (isSeparator x && (cs.head? == some ' ' || ({ rest := cs } : Cursor).seesAnyMarker))

/-- Nothing in a text is folded. -/
def IsUnfolded (cs : List Char) : Prop := ∀ v ∈ cs.tails, isFolded v = false

instance : DecidablePred IsUnfolded := fun cs => inferInstanceAs (Decidable (∀ v ∈ cs.tails, isFolded v = false))

theorem IsUnfolded.suffix {v cs : List Char} (h : IsUnfolded cs) (hv : v <:+ cs) : IsUnfolded v :=
  fun u hu => h u ((List.mem_tails u cs).mpr (((List.mem_tails u v).mp hu).trans hv))

theorem IsUnfolded.right {u v : List Char} (h : IsUnfolded (u ++ v)) : IsUnfolded v := h.suffix (List.suffix_append u v)

theorem IsUnfolded.isFolded {cs : List Char} (h : IsUnfolded cs) : isFolded cs = false :=
  h cs ((List.mem_tails cs cs).mpr List.suffix_rfl)

/-- A document marker is found by what is left of the text. -/
theorem seesAnyMarker_eq (c : Cursor) : c.seesAnyMarker = ({ rest := c.rest } : Cursor).seesAnyMarker := rfl

/-- What follows a closing quote is no part of a document marker before it. -/
theorem seesAnyMarker_append {t : List Char} (h : t.getLast? = some '"') (r : List Char) :
    ({ rest := t ++ r } : Cursor).seesAnyMarker = ({ rest := t } : Cursor).seesAnyMarker := by
  obtain ⟨t, rfl⟩ := List.getLast?_eq_some_iff.mp h
  rcases t with _ | ⟨a, _ | ⟨b, _ | ⟨d, _ | ⟨e, t⟩⟩⟩⟩ <;>
    simp [Cursor.seesAnyMarker, Cursor.seesMarker, Cursor.seesGap, Cursor.peek]

/-- What follows the closing quote of a string does not matter for what is folded in it. -/
theorem isFolded_append {v : List Char} (h : v.getLast? = some '"') (r : List Char) :
    Yaml.isFolded (v ++ r) = Yaml.isFolded v := by
  rcases v with _ | ⟨x, _ | ⟨y, t⟩⟩
  · cases h
  · obtain rfl : x = '"' := by simpa using h
    rfl
  · have hlast : (y :: t).getLast? = some '"' := by rwa [List.getLast?_cons_cons] at h
    have hmarker := seesAnyMarker_append hlast r
    simp only [List.cons_append] at hmarker ⊢
    simp only [Yaml.isFolded, List.head?_cons, hmarker]

/-- What a string keeps does not depend on what follows it. -/
theorem IsUnfolded.left {w r : List Char} (h : IsUnfolded (w ++ r)) (hlast : w.getLast? = some '"') : IsUnfolded w := by
  intro v hv
  obtain ⟨u, rfl⟩ := (List.mem_tails v w).mp hv
  rcases List.eq_nil_or_concat' v with rfl | ⟨v, x, rfl⟩
  · rfl
  · rw [← List.append_assoc, List.getLast?_concat] at hlast
    rw [List.append_assoc] at h
    rw [← isFolded_append (List.getLast?_concat.trans hlast) r]
    exact h.right.isFolded

/-! ## Stretches -/

/-- What one call reads of a string: spaces, or LS and PS. -/
def IsStretch (g : List Char) : Prop := (∀ x ∈ g, x = ' ') ∨ ∀ x ∈ g, isSeparator x = true

theorem isStretch_nil : IsStretch [] := .inl (by simp)

theorem isBreak_of_isSeparator {x : Char} (h : isSeparator x = true) : isBreak x = true := by
  rcases Bool.or_eq_true_iff.mp h with h | h <;> rw [beq_iff_eq.mp h] <;> rfl

theorem isSpaceOrTab_of_isSeparator {x : Char} (h : isSeparator x = true) : isSpaceOrTab x = false := by
  rcases Bool.or_eq_true_iff.mp h with h | h <;> rw [beq_iff_eq.mp h] <;> rfl

theorem IsStretch.isGap {g : List Char} (hg : IsStretch g) {x : Char} (hx : x ∈ g) :
    (isBreak x || isSpaceOrTab x) = true := by
  rcases hg with h | h
  · rw [h x hx]
    rfl
  · rw [isBreak_of_isSeparator (h x hx), Bool.true_or]

/-- A stretch goes on: otherwise a space would be beside LS or PS. -/
theorem IsStretch.concat {g w : List Char} {x : Char} (hg : IsStretch g) (hx : x = ' ' ∨ isSeparator x = true)
    (h : IsUnfolded (g ++ x :: w)) : IsStretch (g ++ [x]) := by
  rcases List.eq_nil_or_concat' g with rfl | ⟨g, y, rfl⟩
  · rcases hx with hx | hx
    · exact .inl (by simpa using hx)
    · exact .inr (by simpa using hx)
  · rw [List.append_assoc] at h
    have hfolded := h.right.isFolded
    have hy : y ∈ g ++ [y] := by simp
    rcases hg with hg | hg <;> rcases hx with rfl | hx
    · exact .inl (by simpa [or_imp, forall_and] using hg)
    · rw [hg y hy] at hfolded
      simp [isFolded, hx] at hfolded
    · simp [isFolded, hg y hy] at hfolded
    · exact .inr (List.forall_mem_append.mpr ⟨hg, by simpa using hx⟩)

theorem lineBreak?_separator {c : Cursor} {x : Char} {r : List Char} (h : c.rest = x :: r) (hx : isSeparator x = true) :
    c.lineBreak? = some (x, c.next) := by
  have hnel : x ≠ '\x85' := by
    rintro rfl
    exact absurd hx (by decide)
  simp [Cursor.lineBreak?, h, isBreak_of_isSeparator hx, hnel]

/-- The rest of a string, at which a stretch ends. -/
structure EndsStretch (w : List Char) : Prop where
  /-- There is neither a space nor a line break next. -/
  head : ∀ x ∈ w.head?, isBreak x = false ∧ isSpaceOrTab x = false
  /-- It goes up to the closing quote. -/
  last : w.getLast? = some '"'

theorem EndsStretch.ne_nil {w : List Char} (h : EndsStretch w) : w ≠ [] := by
  rintro rfl
  cases h.last

theorem EndsStretch.head_append {w : List Char} (h : EndsStretch w) (r : List Char) :
    ∀ x ∈ (w ++ r).head?, isBreak x = false ∧ isSpaceOrTab x = false := by
  rw [List.head?_append_of_ne_nil w h.ne_nil]
  exact h.head

/-- There is no document marker behind LS or PS. -/
theorem seesAnyMarker_separator {c : Cursor} {y : Char} {g w r : List Char} (hc : c.rest = g ++ (w ++ r))
    (hy : isSeparator y = true) (hw : EndsStretch w) (h : IsUnfolded (y :: (g ++ w))) : c.seesAnyMarker = false := by
  have hlast : (g ++ w).getLast? = some '"' := by rw [List.getLast?_append_of_ne_nil g hw.ne_nil, hw.last]
  have hfolded := h.isFolded
  rw [seesAnyMarker_eq, hc, ← List.append_assoc, seesAnyMarker_append hlast]
  simp only [isFolded, hy, Bool.true_and, Bool.or_eq_false_iff] at hfolded
  exact hfolded.2.2

/-- LS and PS behind another one are all kept. -/
theorem foldedBreaks_eq {g w r : List Char} {y : Char} {c : Cursor} (hc : c.rest = g ++ (w ++ r))
    (hy : isSeparator y = true) (hg : ∀ x ∈ g, isSeparator x = true) (hw : EndsStretch w)
    (h : IsUnfolded (y :: (g ++ w))) {fuel : Nat} (hfuel : g.length < fuel) :
    foldedBreaks fuel c = .ok (g, c.advance g.length) := by
  obtain ⟨fuel, rfl⟩ : ∃ m, fuel = m + 1 := ⟨fuel - 1, by omega⟩
  induction g generalizing y c fuel with
  | nil =>
    have hmarker := seesAnyMarker_separator hc hy hw h
    have hspace : c.skip isSpaceOrTab = c := Cursor.skip_of_neg fun x hx => (hw.head_append r x (hc ▸ hx)).2
    have hbreak : c.lineBreak? = none := Cursor.lineBreak?_eq_none fun x hx => (hw.head_append r x (hc ▸ hx)).1
    simp [foldedBreaks, hmarker, hspace, hbreak, Cursor.advance]
  | cons x g ih =>
    have hmarker := seesAnyMarker_separator hc hy hw h
    obtain ⟨hx, hg⟩ := List.forall_mem_cons.mp hg
    have hspace : c.skip isSpaceOrTab = c := Cursor.skip_of_neg (by simpa [hc] using isSpaceOrTab_of_isSeparator hx)
    have hnext : c.next.rest = g ++ (w ++ r) := by rw [Cursor.rest_next, hc]; rfl
    have hrest : IsUnfolded (x :: (g ++ w)) := h.right (u := [y])
    obtain ⟨fuel, rfl⟩ : ∃ m, fuel = m + 1 := ⟨fuel - 1, by simp at hfuel; omega⟩
    rw [foldedBreaks]
    simp only [hmarker, hspace, lineBreak?_separator hc hx, ih hnext hx hg hrest fuel (by simpa using hfuel)]
    rfl

/-- **A stretch is read as it stands.** -/
theorem quotedGap_stretch {g w r : List Char} {c : Cursor} (hc : c.rest = g ++ (w ++ r)) (hne : g ≠ [])
    (hg : IsStretch g) (hw : EndsStretch w) (h : IsUnfolded (g ++ w)) :
    quotedGap c = .ok (g, c.advance g.length) := by
  have hbehind : (c.advance g.length).rest = w ++ r := Cursor.rest_advance_append hc
  rcases hg with hg | hg
  · have hspan : c.span isSpaceOrTab = (g, c.advance g.length) :=
      Cursor.span_eq hc (fun x hx => by rw [hg x hx]; rfl) fun x hx => (hw.head_append r x hx).2
    have hbreak : (c.advance g.length).lineBreak? = none :=
      Cursor.lineBreak?_eq_none fun x hx => (hw.head_append r x (hbehind ▸ hx)).1
    simp [quotedGap, hspan, hbreak, hbehind, hw.ne_nil]
  · obtain ⟨y, g, rfl⟩ := List.exists_cons_of_ne_nil hne
    obtain ⟨hy, hg⟩ := List.forall_mem_cons.mp hg
    have hspan : c.span isSpaceOrTab = ([], c) :=
      Cursor.span_eq (w := []) rfl (by simp) (by simpa [hc] using isSpaceOrTab_of_isSeparator hy)
    have hnext : c.next.rest = g ++ (w ++ r) := by rw [Cursor.rest_next, hc]; rfl
    have hfuel : g.length < c.next.fuel := by
      rw [Cursor.fuel, hnext, List.length_append]
      omega
    have hkept : y ≠ '\n' := by
      rintro rfl
      exact absurd hy (by decide)
    simp only [quotedGap, hspan, lineBreak?_separator hc hy, foldedBreaks_eq hnext hy hg hw h hfuel]
    simp [Except.map, foldBreaks, hkept, Cursor.advance]

/-- A stretch in front of the rest of a string is kept; it takes one call, if there is anything in it. -/
theorem quotedPoints_stretch {g w r : List Char} {c : Cursor} {fuel : Nat} (hc : c.rest = g ++ (w ++ r))
    (hg : IsStretch g) (hw : EndsStretch w) (h : IsUnfolded (g ++ w)) (hfuel : c.rest.length < fuel) :
    ∃ fuel', (w ++ r).length ≤ fuel' ∧ quotedPoints '"' fuel c =
      (quotedPoints '"' (fuel' + 1) (c.advance g.length)).map fun q => (g.map Char.toNat ++ q.1, q.2) := by
  rw [hc, List.length_append] at hfuel
  cases g with
  | nil =>
    obtain ⟨fuel, rfl⟩ : ∃ m, fuel = m + 1 := ⟨fuel - 1, by omega⟩
    refine ⟨fuel, by simp at hfuel ⊢; omega, ?_⟩
    rw [List.length_nil, Cursor.advance]
    cases quotedPoints '"' (fuel + 1) c <;> rfl
  | cons y g =>
    obtain ⟨fuel, rfl⟩ : ∃ m, fuel = m + 2 := ⟨fuel - 2, by simp at hfuel; omega⟩
    have hgap := quotedGap_stretch hc (List.cons_ne_nil y g) hg hw h
    have hy := hg.isGap List.mem_cons_self
    have hpeek : c.peek = some y := by rw [Cursor.peek_zero, hc]; rfl
    refine ⟨fuel, by simp at hfuel ⊢; omega, ?_⟩
    rw [quotedPoints]
    have hquote : y ≠ '"' := by
      rintro rfl
      exact absurd hy (by decide)
    have hback : y ≠ '\\' := by
      rintro rfl
      exact absurd hy (by decide)
    simp only [hpeek, hgap, hy, hquote, hback]
    simp

/-! ## Strings -/

/-- No control character can be part of a string. -/
theorem not_control_of_spells {w : List Char} {ns : List Nat} (h : Spells w ns) : ∀ x ∈ w, ¬ x.toNat < 0x20 := by
  induction h with
  | close => exact List.forall_mem_singleton.mpr (by decide)
  | plain hq hb hc h ih => exact List.forall_mem_cons.mpr ⟨hc, ih⟩
  | @letter c x w ns hu hx h ih =>
    have hc : ¬ c.toNat < 0x20 := by
      unfold Json.simpleEscape? at hx
      split at hx <;> cases hx <;> decide
    exact List.forall_mem_cons.mpr ⟨by decide, List.forall_mem_cons.mpr ⟨hc, ih⟩⟩
  | @code a b c d n w ns hn h ih =>
    have hdigit : ∀ x ∈ [a, b, c, d], ¬ x.toNat < 0x20 := by
      intro x hx hlt
      have hsome := isSome_hexValue?_of_mem hn hx
      have hnone : hexValue? x = none := by
        unfold hexValue?
        dsimp only
        rw [if_neg (by omega), if_neg (by omega), if_neg (by omega)]
      simp [hnone] at hsome
    have hbehind : ∀ x ∈ [a, b, c, d] ++ w, ¬ x.toNat < 0x20 := List.forall_mem_append.mpr ⟨hdigit, ih⟩
    exact List.forall_mem_cons.mpr ⟨by decide, List.forall_mem_cons.mpr ⟨by decide, hbehind⟩⟩

/-- A string goes up to its closing quote. -/
theorem getLast?_of_spells {w : List Char} {ns : List Nat} (h : Spells w ns) : w.getLast? = some '"' := by
  induction h with
  | close => rfl
  | plain hq hb hc h ih => rw [List.getLast?_cons, ih]; rfl
  | letter hu hx h ih => simp [List.getLast?_cons, ih]
  | code hn h ih => simp [List.getLast?_cons, ih]

/-- In a string that keeps its line breaks a character that is no space and neither LS nor PS ends a stretch. -/
theorem isBreak_of_plain {x : Char} {w : List Char} (hcontrol : ¬ x.toNat < 0x20) (h : IsUnfolded (x :: w))
    (hx : ¬ (x = ' ' ∨ isSeparator x = true)) : isBreak x = false ∧ isSpaceOrTab x = false := by
  have hfolded := h.isFolded
  simp only [isFolded, Bool.or_eq_false_iff, beq_eq_false_iff_ne] at hfolded
  have hnel := hfolded.1.1
  have hnewline : x ≠ '\n' := by
    rintro rfl
    exact hcontrol (by decide)
  have htab : x ≠ '\t' := by
    rintro rfl
    exact hcontrol (by decide)
  simp_all [isBreak, isSpaceOrTab, isSeparator]

theorem quotedPoints_close {c : Cursor} {r : List Char} (h : c.rest = '"' :: r) (fuel : Nat) :
    quotedPoints '"' (fuel + 1) c = .ok ([], c.next) := by
  simp [quotedPoints, h]

theorem quotedPoints_plain {c : Cursor} {x : Char} {r : List Char} (h : c.rest = x :: r) (hq : x ≠ '"') (hb : x ≠ '\\')
    (hx : isBreak x = false ∧ isSpaceOrTab x = false) (fuel : Nat) :
    quotedPoints '"' (fuel + 1) c = (quotedPoints '"' fuel c.next).map fun q => ([x.toNat] ++ q.1, q.2) := by
  simp [quotedPoints, h, hq, hb, hx.1, hx.2]

theorem quotedPoints_escape {c c' : Cursor} {points : List Nat} {r : List Char} (h : c.rest = '\\' :: r)
    (hescape : escape c.next = .ok (points, c')) (fuel : Nat) :
    quotedPoints '"' (fuel + 1) c = (quotedPoints '"' fuel c').map fun q => (points ++ q.1, q.2) := by
  simp [quotedPoints, h, hescape]

/-- What one call reads, the character `x` with the characters `u` behind it, is put between the stretch before it and
    the string behind it. -/
theorem quotedPoints_cons {fuel : Nat} {c : Cursor} {x : Char} {g u w r : List Char} {points ns : List Nat}
    (hc : c.rest = g ++ (x :: (u ++ w) ++ r)) (hg : IsStretch g) (hbody : EndsStretch (x :: (u ++ w)))
    (h : IsUnfolded (g ++ x :: (u ++ w))) (hfuel : c.rest.length < fuel)
    (hx : ∀ fuel, quotedPoints '"' (fuel + 1) (c.advance g.length) =
      (quotedPoints '"' fuel ((c.advance g.length).advance (x :: u).length)).map fun q => (points ++ q.1, q.2))
    (hw : ∀ {g : List Char} {fuel : Nat} {c : Cursor}, IsStretch g → IsUnfolded (g ++ w) → c.rest = g ++ (w ++ r) →
      c.rest.length < fuel → quotedPoints '"' fuel c = .ok (g.map Char.toNat ++ ns, c.advance (g.length + w.length))) :
    quotedPoints '"' fuel c =
      .ok (g.map Char.toNat ++ (points ++ ns), c.advance (g.length + (x :: (u ++ w)).length)) := by
  obtain ⟨fuel', hle, hread⟩ := quotedPoints_stretch hc hg hbody h hfuel
  have hbehind : (c.advance g.length).rest = (x :: u) ++ (w ++ r) := by
    simpa using Cursor.rest_advance_append hc
  have hrest : ((c.advance g.length).advance (x :: u).length).rest = [] ++ (w ++ r) :=
    Cursor.rest_advance_append hbehind
  have hshort : ((c.advance g.length).advance (x :: u).length).rest.length < fuel' := by
    rw [hrest]
    simp only [List.length_cons, List.length_append, List.length_nil] at hle ⊢
    omega
  have hunfolded : IsUnfolded ([] ++ w) := h.right.right (u := x :: u)
  have hlength : (x :: (u ++ w)).length = (x :: u).length + (0 + w.length) := by
    simp only [List.length_cons, List.length_append]
    omega
  rw [hread, hx, hw isStretch_nil hunfolded hrest hshort, hlength, Cursor.advance_add c g.length,
    Cursor.advance_add (c.advance g.length)]
  rfl

/-- **A string of JSON is read up to its closing quote**, with the code points that it names, also with a stretch before
    it. -/
theorem quotedPoints_of_spells {w : List Char} {ns : List Nat} (h : Spells w ns) {g r : List Char} {c : Cursor}
    {fuel : Nat} (hg : IsStretch g) (hunfolded : IsUnfolded (g ++ w)) (hc : c.rest = g ++ (w ++ r))
    (hfuel : c.rest.length < fuel) :
    quotedPoints '"' fuel c = .ok (g.map Char.toNat ++ ns, c.advance (g.length + w.length)) := by
  -- the stretch before the string is what the induction has passed of it: it is read in one call
  induction h generalizing g fuel c with
  | close =>
    obtain ⟨fuel', -, hread⟩ := quotedPoints_stretch hc hg ⟨by simp [isBreak, isSpaceOrTab], rfl⟩ hunfolded hfuel
    have hrest : (c.advance g.length).rest = '"' :: r := Cursor.rest_advance_append hc
    rw [hread, quotedPoints_close hrest, Cursor.advance_add]
    rfl
  | @plain x w ns hq hb hcontrol h ih =>
    by_cases hx : x = ' ' ∨ isSeparator x = true
    · have hmore : c.rest = (g ++ [x]) ++ (w ++ r) := by rw [hc, List.append_assoc]; rfl
      have hread := ih (hg.concat hx hunfolded) (by rwa [List.append_assoc]) hmore hfuel
      rw [hread, List.map_append, List.append_assoc, List.length_append, List.length_cons, Nat.add_assoc,
        Nat.add_comm _ w.length]
      rfl
    · have hplain := isBreak_of_plain hcontrol hunfolded.right hx
      have hrest : (c.advance g.length).rest = x :: (w ++ r) := Cursor.rest_advance_append hc
      exact quotedPoints_cons (u := []) hc hg ⟨by simpa using hplain, getLast?_of_spells (.plain hq hb hcontrol h)⟩
        hunfolded hfuel (quotedPoints_plain hrest hq hb hplain) ih
  | @letter y x w ns hu hx h ih =>
    have hrest : (c.advance g.length).rest = '\\' :: y :: (w ++ r) := Cursor.rest_advance_append hc
    have hletter : (c.advance g.length).next.rest = y :: (w ++ r) := by rw [Cursor.rest_next, hrest]; rfl
    exact quotedPoints_cons (u := [y]) hc hg ⟨by simp [isBreak, isSpaceOrTab], getLast?_of_spells (.letter hu hx h)⟩
      hunfolded hfuel (quotedPoints_escape hrest (escape_letter hletter hx)) ih
  | @code d₁ d₂ d₃ d₄ n w ns hn h ih =>
    have hrest : (c.advance g.length).rest = '\\' :: 'u' :: d₁ :: d₂ :: d₃ :: d₄ :: (w ++ r) :=
      Cursor.rest_advance_append hc
    have hdigits : (c.advance g.length).next.rest = 'u' :: d₁ :: d₂ :: d₃ :: d₄ :: (w ++ r) := by
      rw [Cursor.rest_next, hrest]
      rfl
    exact quotedPoints_cons (u := ['u', d₁, d₂, d₃, d₄]) hc hg
      ⟨by simp [isBreak, isSpaceOrTab], getLast?_of_spells (.code hn h)⟩ hunfolded hfuel
      (quotedPoints_escape hrest (escape_code hdigits hn)) ih

/-- **A string of JSON is a quoted scalar.** -/
theorem quoted_of_spells {w : List Char} {ns : List Nat} (h : Spells w ns) (hunfolded : IsUnfolded w) {c : Cursor}
    {r : List Char} (hc : c.rest = '"' :: (w ++ r)) : quoted '"' c = .ok (⟨ns⟩, c.advance (w.length + 1)) := by
  have hnext : c.next.rest = [] ++ (w ++ r) := by rw [Cursor.rest_next, hc]; rfl
  have hfuel : c.next.rest.length < c.fuel := by
    rw [Cursor.fuel, hnext, hc, List.length_cons]
    exact Nat.lt_succ_of_lt (Nat.lt_succ_self _)
  rw [quoted, quotedPoints_of_spells h (g := []) isStretch_nil hunfolded hnext hfuel, List.length_nil, Nat.zero_add,
    Cursor.advance]
  rfl

end Stencil.Yaml
