import Mathlib.Data.List.Basic
import Stencil.Text.Utf8

/-!
# `Stencil.Proofs.Text.Utf8` — bytes of a text

## Contents
- **One character.** A lead byte with the bytes that it needs, all of which fit, is read as the character whose
  number they hold (`firstChar_of_fits`). The bytes of every character are of this form.
- **Texts.** The bytes of a text are read back as that text (`decode_encode`).
-/

namespace Stencil.Text.Utf8

/-! ## One character -/

theorem isTail_iff {b : UInt8} : isTail b = true ↔ 0x80 ≤ b.toNat ∧ b.toNat < 0xC0 := by
  simp [isTail]

theorem fits_iff {lead second : UInt8} :
    fits lead second = true ↔
      isTail second = true ∧ (lead.toNat = 0xE0 → 0xA0 ≤ second.toNat) ∧
        (lead.toNat = 0xED → second.toNat < 0xA0) ∧ (lead.toNat = 0xF0 → 0x90 ≤ second.toNat) ∧
        (lead.toNat = 0xF4 → second.toNat < 0x90) := by
  have hne : ∀ n : UInt8, (lead != n) = true ↔ ¬ lead.toNat = n.toNat := fun n => by
    rw [bne_iff_ne, ne_eq, UInt8.toNat_inj]
  simp only [fits, Bool.and_eq_true, Bool.or_eq_true, hne, decide_eq_true_eq, and_assoc, ← imp_iff_not_or]
  rfl

/-- A byte at the end of the number that the bytes before it make. -/
def push (n : Nat) (b : UInt8) : Nat := n * 0x40 + b.toNat % 0x40

/-- A lead byte and the bytes that it needs, if they fit, are a character. -/
theorem firstChar_of_fits {lead : UInt8} {tails : Bytes} {n : Nat} (hwidth : width? lead = some (tails.length + 1))
    (hfits : fitting lead tails = tails.length) (hn : tails.foldl push (leadBits (tails.length + 1) lead) = n)
    (rest : Bytes) : firstChar lead (tails ++ rest) = .ok (Char.ofNat n, tails.length + 1) := by
  rw [firstChar, hwidth]
  simp only [Nat.add_sub_cancel, List.take_left, hfits, Nat.lt_irrefl, if_false]
  rw [← hn]
  rfl

/-- **The bytes of a character are read as that character**, whatever comes behind them. -/
theorem firstChar_encodeChar (c : Char) :
    ∃ lead tails, encodeChar c = lead :: tails ∧
      ∀ rest, firstChar lead (tails ++ rest) = .ok (c, tails.length + 1) := by
  have hvalid : c.toNat < 0xD800 ∨ 0xDFFF < c.toNat ∧ c.toNat < 0x110000 := c.valid
  have hc : Char.ofNat c.toNat = c := Char.ofNat_toNat c
  generalize hn : c.toNat = n at hvalid hc
  have hbyte : ∀ k < 0x100, (UInt8.ofNat k).toNat = k := fun k hk => UInt8.toNat_ofNat_of_lt' hk
  -- the cases are the widths; `hvalid` keeps the numbers of halves out of the case of three bytes
  unfold encodeChar
  simp only [hn]
  split
  · -- one byte
    refine ⟨_, _, rfl, fun rest => hc ▸ firstChar_of_fits ?_ rfl ?_ rest⟩
    · rw [width?, hbyte _ (by omega), if_pos (by omega)]
      rfl
    · exact hbyte _ (by omega)
  split
  · -- two bytes
    have hlead : (UInt8.ofNat (0xC0 + n / 0x40)).toNat = 0xC0 + n / 0x40 := hbyte _ (by omega)
    have hsecond : (UInt8.ofNat (0x80 + n % 0x40)).toNat = 0x80 + n % 0x40 := hbyte _ (by omega)
    refine ⟨_, _, rfl, fun rest => hc ▸ firstChar_of_fits ?_ ?_ ?_ rest⟩
    · rw [width?, hlead, if_neg (by omega), if_neg (by omega), if_pos (by omega)]
      rfl
    · rw [fitting, if_pos (fits_iff.mpr ⟨isTail_iff.mpr (by omega), by omega, by omega, by omega, by omega⟩)]
      rfl
    · simp only [List.length_cons, List.length_nil, List.foldl_cons, List.foldl_nil, leadBits, push, hlead, hsecond]
      omega
  split
  · -- three bytes
    have hlead : (UInt8.ofNat (0xE0 + n / 0x1000)).toNat = 0xE0 + n / 0x1000 := hbyte _ (by omega)
    have hsecond : (UInt8.ofNat (0x80 + n / 0x40 % 0x40)).toNat = 0x80 + n / 0x40 % 0x40 := hbyte _ (by omega)
    have hthird : (UInt8.ofNat (0x80 + n % 0x40)).toNat = 0x80 + n % 0x40 := hbyte _ (by omega)
    refine ⟨_, _, rfl, fun rest => hc ▸ firstChar_of_fits ?_ ?_ ?_ rest⟩
    · rw [width?, hlead, if_neg (by omega), if_neg (by omega), if_neg (by omega), if_pos (by omega)]
      rfl
    · rw [fitting, if_pos (fits_iff.mpr ⟨isTail_iff.mpr (by omega), by omega, by omega, by omega, by omega⟩),
        List.takeWhile_cons_of_pos (isTail_iff.mpr (by omega))]
      rfl
    · simp only [List.length_cons, List.length_nil, List.foldl_cons, List.foldl_nil, leadBits, push, hlead, hsecond,
        hthird]
      omega
  · -- four bytes
    have hlead : (UInt8.ofNat (0xF0 + n / 0x40000)).toNat = 0xF0 + n / 0x40000 := hbyte _ (by omega)
    have hsecond : (UInt8.ofNat (0x80 + n / 0x1000 % 0x40)).toNat = 0x80 + n / 0x1000 % 0x40 := hbyte _ (by omega)
    have hthird : (UInt8.ofNat (0x80 + n / 0x40 % 0x40)).toNat = 0x80 + n / 0x40 % 0x40 := hbyte _ (by omega)
    have hfourth : (UInt8.ofNat (0x80 + n % 0x40)).toNat = 0x80 + n % 0x40 := hbyte _ (by omega)
    refine ⟨_, _, rfl, fun rest => hc ▸ firstChar_of_fits ?_ ?_ ?_ rest⟩
    · rw [width?, hlead, if_neg (by omega), if_neg (by omega), if_neg (by omega), if_neg (by omega), if_pos (by omega)]
      rfl
    · rw [fitting, if_pos (fits_iff.mpr ⟨isTail_iff.mpr (by omega), by omega, by omega, by omega, by omega⟩),
        List.takeWhile_cons_of_pos (isTail_iff.mpr (by omega)), List.takeWhile_cons_of_pos (isTail_iff.mpr (by omega))]
      rfl
    · simp only [List.length_cons, List.length_nil, List.foldl_cons, List.foldl_nil, leadBits, push, hlead, hsecond,
        hthird, hfourth]
      omega

/-! ## Texts -/

theorem decodeFrom_length (pos : Nat) (bs rest : Bytes) :
    decodeFrom pos bs.length (bs ++ rest) = decodeFrom (pos + bs.length) 0 rest := by
  induction bs generalizing pos with
  | nil => rfl
  | cons b bs ih =>
    rw [List.cons_append, List.length_cons, decodeFrom, ih, Nat.add_assoc, Nat.add_comm 1]

theorem decodeFrom_encode (pos : Nat) (cs : List Char) : decodeFrom pos 0 (encode cs) = .ok cs := by
  induction cs generalizing pos with
  | nil => rfl
  | cons c cs ih =>
    obtain ⟨lead, tails, hc, hread⟩ := firstChar_encodeChar c
    rw [encode_cons, hc, List.cons_append, decodeFrom, hread]
    simp only [Nat.add_sub_cancel]
    rw [decodeFrom_length, ih]

/-- **The bytes of a text are read back as that text.** -/
theorem decode_encode (cs : List Char) : decode (encode cs) = .ok cs := decodeFrom_encode 0 cs

end Stencil.Text.Utf8
