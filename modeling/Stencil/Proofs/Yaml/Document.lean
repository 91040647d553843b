import Stencil.Entries
import Stencil.Proofs.Yaml.Scanner
import Stencil.Yaml.Document

/-!
# `Stencil.Proofs.Yaml.Document` — what a mapping of strings in braces says

## Contents
- **Structure.** The tokens of a mapping of strings are read as its members, by induction on the members behind the
  first one.
- **Values.** Every scalar in quotes is a text, so that the members are the entries of the mapping, of a name the first
  position with the last value (`Document.ofText_quotedText`).
-/

namespace Stencil.Yaml

open Text

/-! ## Structure -/

/-- A name and a value in quotes. -/
def quotedPair (e : String × String) : Node × Node :=
  (.scalar (.styled (.ofString e.1)), .scalar (.styled (.ofString e.2)))

namespace Node

/-- The first member. -/
theorem flowPairs_member (e : String × String) (fuel : Nat) (ts : List Token) :
    flowPairs (fuel + 2) true (memberTokens e ++ ts) =
      (flowPairs (fuel + 1) false ts).map fun r => (quotedPair e :: r.1, r.2) := by
  rw [flowPairs]
  · rfl
  · simp [memberTokens]

/-- A member behind a comma. -/
theorem flowPairs_comma (e : String × String) (fuel : Nat) (ts : List Token) :
    flowPairs (fuel + 2) false (.comma :: (memberTokens e ++ ts)) =
      (flowPairs (fuel + 1) false ts).map fun r => (quotedPair e :: r.1, r.2) := by
  rw [flowPairs]
  · rfl
  · simp [memberTokens]

/-- The members behind the first one are read. -/
theorem flowPairs_furtherTokens {fuel : Nat} {es : List (String × String)} (hfuel : es.length < fuel) :
    flowPairs (fuel + 1) false (furtherTokens es) = .ok (es.map quotedPair, []) := by
  induction es generalizing fuel with
  | nil => rfl
  | cons e es ih =>
    obtain ⟨fuel, rfl⟩ : ∃ m, fuel = m + 1 := ⟨fuel - 1, by omega⟩
    rw [furtherTokens_cons, flowPairs_comma, ih (by simpa using hfuel)]
    rfl

/-- **The members of a mapping are read.** -/
theorem flowPairs_membersTokens {fuel : Nat} {es : List (String × String)} (hfuel : es.length < fuel) :
    flowPairs (fuel + 1) true (membersTokens es) = .ok (es.map quotedPair, []) := by
  cases es with
  | nil => rfl
  | cons e es =>
    obtain ⟨fuel, rfl⟩ : ∃ m, fuel = m + 1 := ⟨fuel - 1, by omega⟩
    rw [membersTokens, flowPairs_member, flowPairs_furtherTokens (by simpa using hfuel)]
    rfl

theorem length_le_furtherTokens (es : List (String × String)) : es.length < (furtherTokens es).length := by
  induction es with
  | nil => exact Nat.one_pos
  | cons e es ih =>
    rw [furtherTokens_cons, List.length_cons, List.length_cons, List.length_append]
    omega

theorem length_le_membersTokens (es : List (String × String)) : es.length ≤ (membersTokens es).length := by
  cases es with
  | nil => exact Nat.zero_le _
  | cons e es =>
    have := length_le_furtherTokens es
    simp only [membersTokens, memberTokens, List.length_append, List.length_cons]
    omega

/-- **The mapping is all that the text holds.** -/
theorem ofTokens_membersTokens (es : List (String × String)) :
    ofTokens (.flowMappingStart :: membersTokens es) = .ok (some (.mapping (es.map quotedPair))) := by
  have hlength := length_le_membersTokens es
  have hpairs : flowPairs (2 * (membersTokens es).length + 2 + 1) true (membersTokens es) =
      .ok (es.map quotedPair, []) := flowPairs_membersTokens (by omega)
  have hfuel : 2 * (Token.flowMappingStart :: membersTokens es).length + 2 =
      2 * (membersTokens es).length + 2 + 1 + 1 := by
    rw [List.length_cons]
    omega
  have hread : read (2 * (membersTokens es).length + 2 + 1 + 1) true false (.flowMappingStart :: membersTokens es) =
      .ok (.mapping (es.map quotedPair), []) := by
    rw [read, hpairs]
    rfl
  rw [ofTokens, hfuel, firstDocument]
  simp only [skipDirectives, List.isEmpty_cons, Bool.false_eq_true, Nat.lt_irrefl, if_false, hread]
  rfl
end Node

/-! ## Values -/

namespace Document

/-- The entry that a parameter makes. -/
def quotedEntry (e : String × String) : Datum × Content := (.text (.ofString e.1), .scalar (.text (.ofString e.2)))

/-- Names are the same key exactly if they are the same text. -/
theorem insert_map (k v : String) (es : List (String × String)) :
    insert (.text (.ofString k)) (.scalar (.text (.ofString v))) (es.map quotedEntry) =
      (Entries.insert k v es).map quotedEntry := by
  induction es with
  | nil => rfl
  | cons e es ih =>
    have hsame : (quotedEntry e).1.same (.text (.ofString k)) = true ↔ e.1 = k := by
      rw [quotedEntry, Datum.same, beq_iff_eq]
      exact ⟨CodePoints.ofString_inj, congrArg _⟩
    rw [List.map_cons, insert, Entries.insert, ih]
    by_cases hk : e.1 = k
    · rw [if_pos (hsame.mpr hk), if_pos hk, ← hk]
      rfl
    · rw [if_neg (mt hsame.mp hk), if_neg hk]
      rfl

theorem pairsInto_map (es ps : List (String × String)) :
    pairsInto (es.map quotedEntry) (ps.map quotedPair) = .ok ((Entries.merge es ps).map quotedEntry) := by
  induction ps generalizing es with
  | nil => rfl
  | cons p ps ih =>
    have hkey : keyOf (quotedPair p).1 = .ok (.text (.ofString p.1)) := by simp [quotedPair, keyOf, Datum.ofScalar]
    have hcontent : contentOf (quotedPair p).2 = .ok (.scalar (.text (.ofString p.2))) := rfl
    rw [List.map_cons, pairsInto, hkey, hcontent]
    simp only [insert_map, ih]
    rfl

theorem entriesOf_map (es : List (String × String)) :
    entriesOf (es.map quotedPair) = .ok ((Entries.collapse es).map quotedEntry) := by
  have hmerge : ((es.map quotedPair).any fun p => isMerge p.1) = false := by
    simp [quotedPair, isMerge]
  rw [entriesOf, hmerge, if_neg Bool.false_ne_true]
  exact pairsInto_map [] es

theorem collectionsIn_map (es : List (String × String)) : collectionsIn (.mapping (es.map quotedPair)) = [] := by
  simp only [collectionsIn, List.filter_eq_nil_iff, List.mem_map]
  rintro _ ⟨_, ⟨e, -, rfl⟩, rfl⟩
  exact Bool.false_ne_true

/-- **A mapping of strings says what its members say.** -/
theorem ofText_quotedText {text : List Char} {es : List (String × String)} (h : QuotedText text es)
    (hallowed : ∀ c ∈ text, isAllowed c = true) :
    ofText text = .ok (.mapping ((Entries.collapse es).map quotedEntry)) := by
  have hnode : (Token.ofText text).bind Node.ofTokens = .ok (some (.mapping (es.map quotedPair))) := by
    rw [Token.ofText_quotedText h hallowed]
    exact Node.ofTokens_membersTokens es
  have hchecked : checkLevels (text.length + 1) [.mapping (es.map quotedPair)] = .ok () := by
    have hall : [Node.mapping (es.map quotedPair)].forM checkNode = .ok () := by
      rw [List.forM, checkNode, entriesOf_map]
      rfl
    simp only [checkLevels, hall, List.flatMap_singleton, collectionsIn_map]
  rw [ofText, hnode]
  simp only [hchecked, ofNode, entriesOf_map]
  rfl

end Document
end Stencil.Yaml
