import Mathlib.Algebra.Group.Nat.Defs
import Stencil.Json.Printer
import Stencil.Proofs.Json.FlatObject

/-!
# `Stencil.Proofs.Json.Atoms` — strings and numbers that are written and read

## Contents
- **Strings.** Every character is escaped so that it is read back, so every string is
  (`stringBody_escaped`).
- **Numerals.** The digits of a number read back as that number, if what comes behind them does not go on
  with the numeral (`Ends`). A number with more than `maxDigits` digits is written, but not read
  (`number_intDigits`).
- **Words.** The null value and the truth values.
-/

namespace Stencil.Json

open Number Text

/-! ## Strings -/

theorem ofHexDigits?_concat (ds : List Char) (d : Char) :
    ofHexDigits? (ds ++ [d]) = (ofHexDigits? ds).bind fun n => (hexValue? d).map fun v => n * 16 + v := by
  simp [ofHexDigits?, List.foldl_append]

/-- The last digits of a number are read as what they leave of it. -/
theorem ofHexDigits?_hexDigits (width n : Nat) : ofHexDigits? (hexDigits width n) = some (n % 16 ^ width) := by
  induction width generalizing n with
  | zero => simp [hexDigits, ofHexDigits?, Nat.mod_one]
  | succ width ih =>
    have hmod : n % 16 ^ (width + 1) = n / 16 % 16 ^ width * 16 + n % 16 := by
      rw [Nat.pow_succ', Nat.mod_mul]
      omega
    rw [hexDigits, ofHexDigits?_concat, ih, hexValue?_hexDigit (Nat.mod_lt n (by decide)), hmod]
    rfl

/-- A character is escaped by a letter, escaped by its code point, or left as it is. -/
theorem escapeChar_cases (c : Char) :
    (∃ d, escapeChar c = ['\\', d] ∧ d ≠ 'u' ∧ simpleEscape? d = some c ∧ 0x20 ≤ d.toNat) ∨
      (escapeChar c = '\\' :: 'u' :: hexDigits 4 c.toNat ∧ c.toNat < 0x20) ∨
      (escapeChar c = [c] ∧ c ≠ '"' ∧ c ≠ '\\' ∧ ¬ c.toNat < 0x20) := by
  unfold escapeChar
  split
  · next h => exact .inl ⟨'"', rfl, by decide, by rw [h]; rfl, by decide⟩
  split
  · next h => exact .inl ⟨'\\', rfl, by decide, by rw [h]; rfl, by decide⟩
  split
  · next h => exact .inl ⟨'b', rfl, by decide, by rw [h]; rfl, by decide⟩
  split
  · next h => exact .inl ⟨'t', rfl, by decide, by rw [h]; rfl, by decide⟩
  split
  · next h => exact .inl ⟨'n', rfl, by decide, by rw [h]; rfl, by decide⟩
  split
  · next h => exact .inl ⟨'f', rfl, by decide, by rw [h]; rfl, by decide⟩
  split
  · next h => exact .inl ⟨'r', rfl, by decide, by rw [h]; rfl, by decide⟩
  split
  · next hlow => exact .inr (.inl ⟨rfl, hlow⟩)
  · next hquote hbackslash _ _ _ _ _ hlow => exact .inr (.inr ⟨rfl, hquote, hbackslash, hlow⟩)

/-- An escaped character is read as itself. -/
theorem stringPoints_escapeChar (opening : Nat) (c : Char) {rest : List Char} (hrest : rest ≠ []) :
    stringPoints opening (escapeChar c ++ rest) =
      (stringPoints opening rest).map fun r => (c.toNat :: r.1, r.2) := by
  rcases escapeChar_cases c with ⟨d, hc, hu, hd, -⟩ | ⟨hc, hlow⟩ | ⟨hc, hquote, hbackslash, hlow⟩
  · rw [hc]
    exact stringPoints_escape hu hd opening rest
  · -- the reader looks at one character behind the digits
    obtain ⟨e, cs, rfl⟩ := List.exists_cons_of_ne_nil hrest
    have hn : ofHexDigits? (hexDigits 4 c.toNat) = some c.toNat := by
      rw [ofHexDigits?_hexDigits, Nat.mod_eq_of_lt (by omega)]
    rw [hc]
    simp only [hexDigits, List.nil_append, List.cons_append] at hn ⊢
    rw [stringPoints]
    simp only [hn]
  · rw [hc]
    exact stringPoints_plain hquote hbackslash hlow opening rest

theorem stringPoints_escaped (opening : Nat) (cs rest : List Char) :
    stringPoints opening (cs.flatMap escapeChar ++ '"' :: rest) = .ok (cs.map Char.toNat, rest) := by
  induction cs with
  | nil => simp [stringPoints]
  | cons c cs ih =>
    rw [List.flatMap_cons, List.append_assoc, stringPoints_escapeChar opening c (by simp), ih]
    rfl

/-- **A string is read back**, whatever comes behind its closing quote. -/
theorem stringBody_escaped (s : String) (rest : List Char) :
    stringBody .strict (s.toList.flatMap escapeChar ++ '"' :: rest) = .ok (CodePoints.ofString s, rest) := by
  have hjoined : CodePoints.joined ⟨s.toList.map Char.toNat⟩ = CodePoints.ofString s := CodePoints.joined_ofString s
  rw [stringBody, stringPoints_escaped]
  simp only [hjoined, CodePoints.toString?_ofString]

theorem quoteString_append (s : String) (rest : List Char) :
    quoteString s ++ rest = '"' :: (s.toList.flatMap escapeChar ++ '"' :: rest) := by
  simp [quoteString]

theorem value_quoteString (fuel : Nat) (s : String) (rest : List Char) :
    value .strict (fuel + 1) (quoteString s ++ rest) = .ok (.string s, rest) := by
  rw [quoteString_append]
  unfold value
  simp only [stringBody_escaped, Except.map, CodePoints.inBytes_ofString]

/-! ## Numerals -/

theorem isAsciiDigit_of_mem_toDigits {n : Nat} {c : Char} (h : c ∈ Nat.toDigits 10 n) : isAsciiDigit c = true := by
  have hc := Nat.isDigit_of_mem_toDigits (by decide) (by decide) h
  simpa [Char.isDigit, isAsciiDigit, UInt32.le_iff_toNat_le] using hc

theorem ofDigits_toDigits (n : Nat) : ofDigits (Nat.toDigits 10 n) = n := by
  have h := Nat.ofDigitChars_toDigits (b := 10) (n := n) (by decide) (by decide)
  rw [Nat.ofDigitChars] at h
  rw [ofDigits]
  simpa [Nat.mul_comm] using h

theorem toDigits_eq_cons (n : Nat) : ∃ c ds, Nat.toDigits 10 n = c :: ds ∧ isAsciiDigit c = true := by
  obtain ⟨c, ds, hds⟩ := List.exists_cons_of_ne_nil (Nat.toDigits_ne_nil (n := n) (b := 10))
  exact ⟨c, ds, hds, isAsciiDigit_of_mem_toDigits (n := n) (by simp [hds])⟩

/-- A number other than zero does not start with a zero. -/
theorem head?_toDigits_ne_zero (n : Nat) (hn : 0 < n) : (Nat.toDigits 10 n).head? ≠ some '0' := by
  induction n using Nat.strongRecOn with
  | ind n ih =>
    by_cases hlt : n < 10
    · have hdigit : ∀ m < 10, 0 < m → [m.digitChar].head? ≠ some '0' := by decide
      rw [Nat.toDigits_of_lt_base hlt]
      exact hdigit n hlt hn
    · -- the first digit is the same without the last one
      have hrec := ih (n / 10) (by omega) (by omega)
      obtain ⟨c, ds, hc, -⟩ := toDigits_eq_cons (n / 10)
      rw [hc] at hrec
      rw [Nat.toDigits_of_base_le (by decide) (by omega), hc]
      exact hrec

/-- Whether a character behind a whole number would be taken for a part of it. -/
def goesOn (c : Char) : Bool := isAsciiDigit c || c == '.' || c == 'e' || c == 'E'

/-- What a number can stand before. -/
def Ends (rest : List Char) : Prop := ∀ c ∈ rest.head?, goesOn c = false

theorem ends_nil : Ends [] := by simp [Ends]

theorem ends_cons {c : Char} (h : goesOn c = false) (cs : List Char) : Ends (c :: cs) := by
  simp [Ends, h]

theorem takeWhile_append_of_ends {ds rest : List Char} (hds : ∀ c ∈ ds, isAsciiDigit c = true) (h : Ends rest) :
    (ds ++ rest).takeWhile isAsciiDigit = ds ∧ (ds ++ rest).dropWhile isAsciiDigit = rest := by
  rw [List.takeWhile_append_of_pos hds, List.dropWhile_append_of_pos hds]
  cases rest with
  | nil => simp
  | cons c cs =>
    have hc : isAsciiDigit c = false := by
      have := h c rfl
      simp only [goesOn, Bool.or_eq_false_iff] at this
      exact this.1.1.1
    simp [hc]

theorem wholePart?_toDigits (n : Nat) {rest : List Char} (h : Ends rest) :
    wholePart? (Nat.toDigits 10 n ++ rest) = some (Nat.toDigits 10 n, rest) := by
  -- a zero at the front is read alone, and no other number starts with one
  rcases Nat.eq_zero_or_pos n with rfl | hn
  · simp [wholePart?]
  · have hhead := head?_toDigits_ne_zero n hn
    have hall : ∀ c ∈ Nat.toDigits 10 n, isAsciiDigit c = true := fun c => isAsciiDigit_of_mem_toDigits
    obtain ⟨c, ds, hc, hdigit⟩ := toDigits_eq_cons n
    rw [hc] at hhead hall ⊢
    obtain ⟨htake, hdrop⟩ := takeWhile_append_of_ends (fun d hd => hall d (List.mem_cons_of_mem c hd)) h
    rw [List.cons_append, wholePart?, if_pos hdigit, htake, hdrop]
    rintro rfl
    exact hhead rfl

theorem fractionPart_of_ends {rest : List Char} (h : Ends rest) : fractionPart rest = ([], rest) := by
  unfold fractionPart
  split
  · next cs => exact absurd (h '.' rfl) (by decide)
  · rfl

theorem exponentPart_of_ends {rest : List Char} (h : Ends rest) : exponentPart rest = (none, rest) := by
  cases rest with
  | nil => rfl
  | cons c cs =>
    have hc : ¬ (c = 'e' || c = 'E') = true := by
      rintro hmark
      have := h c rfl
      simp_all [goesOn]
    unfold exponentPart
    exact if_neg hc

theorem length_toDigits_le_iff (n : Nat) : (Nat.toDigits 10 n).length ≤ maxDigits ↔ n < 10 ^ maxDigits :=
  Nat.length_toDigits_le_iff (by decide) (by decide)

/-- **Digits are read as the number that they write**, unless they are too many. -/
theorem unsigned_toDigits (length : Nat) (negative : Bool) (n : Nat) {rest : List Char} (h : Ends rest) :
    unsigned .strict length negative (Nat.toDigits 10 n ++ rest) =
      if n < 10 ^ maxDigits then .ok (.int (if negative then -(n : Int) else n), rest)
      else .error ⟨.tooManyDigits (Nat.toDigits 10 n).length, length⟩ := by
  have hlength := length_toDigits_le_iff n
  unfold unsigned
  simp only [wholePart?_toDigits n h, fractionPart_of_ends h, exponentPart_of_ends h, ofDigits_toDigits]
  by_cases hn : n < 10 ^ maxDigits
  · have hle : ¬ maxDigits < (Nat.toDigits 10 n).length := Nat.not_lt.mpr (hlength.mpr hn)
    simp [hle, hn]
  · have hlt : maxDigits < (Nat.toDigits 10 n).length := Nat.lt_of_not_le fun hle => hn (hlength.mp hle)
    simp [hlt, hn]

/-- A text with another first character does not start with the word. -/
theorem word?_eq_none {a c : Char} {w : List Char} (hw : w.head? = some a) (h : a ≠ c) (cs : List Char) :
    word? w (c :: cs) = none := by
  obtain ⟨t, rfl⟩ := List.head?_eq_some_iff.mp hw
  simp [word?, h]

theorem word?_append (w cs : List Char) : word? w (w ++ cs) = some cs := by
  rw [word?, if_pos (List.isPrefixOf_iff_prefix.mpr (List.prefix_append w cs)), List.drop_left]

theorem ne_of_isAsciiDigit {c d : Char} (hc : isAsciiDigit c = true) (hd : isAsciiDigit d = false) : d ≠ c := by
  rintro rfl
  rw [hd] at hc
  exact absurd hc (by decide)

/-- What starts with a digit is no word. -/
theorem number_of_digit {c : Char} (hc : isAsciiDigit c = true) (cs : List Char) :
    number .strict (c :: cs) = unsigned .strict (c :: cs).length false (c :: cs) := by
  have hnan : word? "NaN".toList (c :: cs) = none := word?_eq_none rfl (ne_of_isAsciiDigit hc (by decide)) cs
  have hinfinity : word? "Infinity".toList (c :: cs) = none :=
    word?_eq_none rfl (ne_of_isAsciiDigit hc (by decide)) cs
  have hminus : word? "-Infinity".toList (c :: cs) = none :=
    word?_eq_none rfl (ne_of_isAsciiDigit hc (by decide)) cs
  rw [number, hnan, hinfinity, hminus]
  intro r hr
  exact absurd (List.cons.inj hr).1.symm (ne_of_isAsciiDigit hc (by decide))

theorem number_of_minus {c : Char} (hc : isAsciiDigit c = true) (cs : List Char) :
    number .strict ('-' :: c :: cs) = unsigned .strict ('-' :: c :: cs).length true (c :: cs) := by
  have hnan : word? "NaN".toList ('-' :: c :: cs) = none := word?_eq_none rfl (by decide) _
  have hinfinity : word? "Infinity".toList ('-' :: c :: cs) = none := word?_eq_none rfl (by decide) _
  have hminus : word? "-Infinity".toList ('-' :: c :: cs) = none := by
    have hi : 'I' ≠ c := ne_of_isAsciiDigit hc (by decide)
    simp [word?, hi]
  rw [number, hnan, hinfinity, hminus]

theorem isWritable_iff (n : Int) : isWritable n = true ↔ n.natAbs < 10 ^ maxDigits := by
  rw [isWritable, decide_eq_true_iff, Nat.pow_eq]

/-- **An integer is read back**, unless it has too many digits. -/
theorem number_intDigits (n : Int) {rest : List Char} (h : Ends rest) :
    (number .strict (intDigits n ++ rest)).toOption = if isWritable n then some (.int n, rest) else none := by
  obtain ⟨c, ds, hds, hc⟩ := toDigits_eq_cons n.natAbs
  have hread : ∀ length negative, (unsigned .strict length negative (c :: (ds ++ rest))).toOption =
      if isWritable n then some (.int (if negative then -(n.natAbs : Int) else n.natAbs), rest) else none := by
    intro length negative
    have hunsigned := unsigned_toDigits length negative n.natAbs h
    rw [hds, List.cons_append] at hunsigned
    rw [hunsigned]
    by_cases hn : n.natAbs < 10 ^ maxDigits
    · rw [if_pos hn, if_pos ((isWritable_iff n).mpr hn)]
      rfl
    · rw [if_neg hn, if_neg (mt (isWritable_iff n).mp hn)]
      rfl
  unfold intDigits
  by_cases hneg : n < 0
  · have habs : -(n.natAbs : Int) = n := by omega
    simp only [hneg, if_true, hds, List.cons_append]
    rw [number_of_minus hc, hread]
    simp only [if_true, habs]
  · have habs : (n.natAbs : Int) = n := by omega
    simp only [hneg, if_false, hds, List.cons_append]
    rw [number_of_digit hc, hread]
    simp only [Bool.false_eq_true, if_false, habs]

/-! ## Words -/

theorem literal?_null (rest : List Char) : literal? ("null".toList ++ rest) = some (.null, rest) := by
  rw [literal?, word?_append]

theorem literal?_bool (b : Bool) (rest : List Char) :
    literal? ((if b then "true" else "false").toList ++ rest) = some (.bool b, rest) := by
  cases b with
  | true =>
    have hnull : word? "null".toList ("true".toList ++ rest) = none := word?_eq_none rfl (by decide) _
    rw [literal?, if_pos rfl, hnull, word?_append]
  | false =>
    have hnull : word? "null".toList ("false".toList ++ rest) = none := word?_eq_none rfl (by decide) _
    have htrue : word? "true".toList ("false".toList ++ rest) = none := word?_eq_none rfl (by decide) _
    rw [literal?, if_neg (by decide), hnull, htrue, word?_append]

end Stencil.Json
