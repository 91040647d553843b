import Stencil.Proofs.Json.RoundTrip
import Stencil.Text.Lines

/-!
# `Stencil.Proofs.Json.Printed` — the characters of written JSON

Strings are escaped and lines are broken with LF, so written JSON has no control characters but LF; it stays as
it is if the line breaks of a file are made alike (`normalizeNewlines_render`).
-/

namespace Stencil.Json

open Text

/-- A text without control characters, LF apart. -/
def IsPrinted (cs : List Char) : Prop := ∀ c ∈ cs, c = '\n' ∨ 0x20 ≤ c.toNat

theorem isPrinted_nil : IsPrinted [] := by simp [IsPrinted]

theorem isPrinted_append {as bs : List Char} (ha : IsPrinted as) (hb : IsPrinted bs) : IsPrinted (as ++ bs) :=
  fun c hc => (List.mem_append.mp hc).elim (ha c) (hb c)

theorem isPrinted_cons {c : Char} {cs : List Char} (hc : 0x20 ≤ c.toNat) (hcs : IsPrinted cs) : IsPrinted (c :: cs) :=
  List.forall_mem_cons.mpr ⟨.inr hc, hcs⟩

theorem isPrinted_of_all {cs : List Char} (h : (cs.all fun c => 0x20 ≤ c.toNat) = true) : IsPrinted cs :=
  fun c hc => .inr (by simpa using List.all_eq_true.mp h c hc)

theorem isPrinted_hexDigits (width n : Nat) : IsPrinted (hexDigits width n) := by
  have hdigit : ∀ m < 16, 0x20 ≤ (hexDigit m).toNat := by decide
  induction width generalizing n with
  | zero => exact isPrinted_nil
  | succ width ih =>
    exact isPrinted_append (ih _) (isPrinted_cons (hdigit _ (Nat.mod_lt n (by decide))) isPrinted_nil)

theorem isPrinted_escapeChar (c : Char) : IsPrinted (escapeChar c) := by
  rcases escapeChar_cases c with ⟨d, hc, -, -, hd⟩ | ⟨hc, -⟩ | ⟨hc, -, -, hlow⟩
  · rw [hc]
    exact isPrinted_cons (by decide) (isPrinted_cons hd isPrinted_nil)
  · rw [hc]
    exact isPrinted_cons (by decide) (isPrinted_cons (by decide) (isPrinted_hexDigits 4 c.toNat))
  · rw [hc]
    exact isPrinted_cons (by omega) isPrinted_nil

theorem isPrinted_quoteString (s : String) : IsPrinted (quoteString s) := by
  have hescaped : IsPrinted (s.toList.flatMap escapeChar) := by
    intro c hc
    obtain ⟨d, -, hd⟩ := List.mem_flatMap.mp hc
    exact isPrinted_escapeChar d c hd
  exact isPrinted_append (isPrinted_cons (by decide) hescaped) (isPrinted_cons (by decide) isPrinted_nil)

theorem isPrinted_intDigits (n : Int) : IsPrinted (intDigits n) := by
  have hdigits : IsPrinted (Nat.toDigits 10 n.natAbs) := by
    intro c hc
    have h := isAsciiDigit_of_mem_toDigits hc
    simp only [isAsciiDigit, Bool.and_eq_true, decide_eq_true_eq] at h
    exact .inr (by omega)
  unfold intDigits
  dsimp only
  split
  · exact isPrinted_cons (by decide) hdigits
  · exact hdigits

theorem isPrinted_lineBreak (style : Style) (level : Nat) : IsPrinted (style.lineBreak level) := by
  cases style with
  | compact => exact isPrinted_nil
  | indented =>
    intro c hc
    rcases List.mem_cons.mp hc with rfl | hc
    · exact .inl rfl
    · rw [List.eq_of_mem_replicate hc]
      exact .inr (by decide)

theorem isPrinted_colon (style : Style) : IsPrinted style.colon := by
  cases style with
  | compact => exact isPrinted_of_all (by decide)
  | indented => exact isPrinted_of_all (by decide)

theorem isPrinted_separated (style : Style) (level : Nat) {ts : List (List Char)} (h : ∀ t ∈ ts, IsPrinted t) :
    IsPrinted (style.separated level ts) := by
  have hbreak := isPrinted_lineBreak style level
  fun_induction Style.separated style level ts with
  | case1 => exact isPrinted_nil
  | case2 t => exact isPrinted_append hbreak (h t (by simp))
  | case3 t ts hne ih =>
    exact isPrinted_append (isPrinted_append hbreak (h t (by simp)))
      (isPrinted_cons (by decide) (ih fun u hu => h u (List.mem_cons_of_mem t hu)))

theorem isPrinted_bracketed (style : Style) (level : Nat) {opening closing : Char} (ho : 0x20 ≤ opening.toNat)
    (hc : 0x20 ≤ closing.toNat) {ts : List (List Char)} (h : ∀ t ∈ ts, IsPrinted t) :
    IsPrinted (style.bracketed level opening closing ts) := by
  have hclosing : IsPrinted [closing] := isPrinted_cons hc isPrinted_nil
  unfold Style.bracketed
  split
  · exact isPrinted_cons ho hclosing
  · exact isPrinted_append (isPrinted_append (isPrinted_cons ho (isPrinted_separated style _ h))
      (isPrinted_lineBreak style level)) hclosing

mutual

/-- **The text of a value has no control characters but LF.** -/
theorem isPrinted_render (style : Style) (level : Nat) : (v : Value) → v.all Value.isExact = true →
    IsPrinted (render style level v)
  | .null, _ => by
    rw [render]
    exact isPrinted_of_all (by decide)
  | .bool b, _ => by
    rw [render]
    exact isPrinted_of_all (by cases b <;> decide)
  | .int n, _ => by
    rw [render]
    exact isPrinted_intDigits n
  | .float d, hexact => by simp [Value.all, Value.isExact] at hexact
  | .string s, _ => by
    rw [render]
    exact isPrinted_quoteString s
  | .array vs, hexact => by
    rw [render]
    exact isPrinted_bracketed style level (by decide) (by decide) (isPrinted_renderItems style (level + 1) vs hexact)
  | .object ms, hexact => by
    rw [render]
    exact isPrinted_bracketed style level (by decide) (by decide) (isPrinted_renderMembers style (level + 1) ms hexact)

theorem isPrinted_renderItems (style : Style) (level : Nat) : (vs : List Value) →
    Value.allItems Value.isExact vs = true → ∀ t ∈ renderItems style level vs, IsPrinted t
  | [], _ => by simp [renderItems]
  | v :: vs, hexact => by
    rw [Value.allItems, Bool.and_eq_true] at hexact
    rw [renderItems]
    exact List.forall_mem_cons.mpr
      ⟨isPrinted_render style level v hexact.1, isPrinted_renderItems style level vs hexact.2⟩

theorem isPrinted_renderMembers (style : Style) (level : Nat) : (ms : List (String × Value)) →
    Value.allMembers Value.isExact ms = true → ∀ t ∈ renderMembers style level ms, IsPrinted t
  | [], _ => by simp [renderMembers]
  | (name, v) :: ms, hexact => by
    rw [Value.allMembers, Bool.and_eq_true] at hexact
    have hmember : IsPrinted (quoteString name ++ style.colon ++ render style level v) :=
      isPrinted_append (isPrinted_append (isPrinted_quoteString name) (isPrinted_colon style))
        (isPrinted_render style level v hexact.1)
    rw [renderMembers]
    exact List.forall_mem_cons.mpr ⟨hmember, isPrinted_renderMembers style level ms hexact.2⟩

end

theorem normalizeNewlines_render (style : Style) (level : Nat) {v : Value} (h : v.all Value.isExact = true) :
    normalizeNewlines (render style level v) = render style level v := by
  refine normalizeNewlines_eq_self fun hr => ?_
  rcases isPrinted_render style level v h '\r' hr with hlf | hlow
  · exact absurd hlf (by decide)
  · exact absurd hlow (by decide)

end Stencil.Json
