import Stencil.Proofs.Text.Lines
import Stencil.Proofs.Yaml.Scanner

/-!
# `Stencil.Proofs.Yaml.Portable` — texts of JSON that are texts of YAML

Not every object of strings that JSON knows is a mapping of YAML with the same members. `IsPortable` says what keeps it
from being one.

## Contents
- **Conditions.** `IsPortable` is about the characters of a text and about the strings in it, which are found by their
  opening quotes (`stringTails`).
- **Strings.** A portable string is quoted in YAML, and a portable name is near its colon.
- **Grammars.** An object of strings that is portable is a mapping of strings in braces, once its line breaks are LF
  (`IsPortable.quotedText`).
-/

namespace Stencil.Yaml

open Text Json

/-! ## Conditions -/

/-- What stands behind each opening quote of a text of JSON. The flag tells whether the text starts inside a string. -/
def stringTails : (inside : Bool) → List Char → List (List Char)
  | _, [] => []
  | true, '\\' :: _ :: cs => stringTails true cs
  | true, '"' :: cs => stringTails false cs
  | false, '"' :: cs => cs :: stringTails true cs
  | inside, _ :: cs => stringTails inside cs

/-- Whether an escape of the string whose opening quote has just been passed names half of a surrogate pair. -/
def namesHalf (cs : List Char) : Bool :=
  match stringPoints cs.length cs with
  | .ok (points, _) => points.any CodePoints.isHalf
  | .error _ => false

/-- Whether the string whose opening quote has just been passed is a name, and a line break or 1024 characters are
    between the quote and its colon. -/
def isFarName (cs : List Char) : Bool :=
  match stringPoints cs.length cs with
  | .ok (_, rest) =>
    let colon := skipSpace rest
    let before := cs.take (cs.length - colon.length)
    colon.head? == some ':' && (before.any (fun x => isBreak x || x == '\r') || 1024 ≤ before.length)
  | .error _ => false

/-- What keeps a text of JSON from being one of YAML is not there. -/
structure IsPortable (text : List Char) : Prop where
  /-- There are no tabs between its tokens. -/
  noTab : '\t' ∉ text
  /-- All characters may stand in a text of YAML. -/
  allowed : ∀ x ∈ text, isAllowed x = true
  /-- The line breaks that JSON does not know, NEL, LS and PS, are not folded. -/
  unfolded : IsUnfolded text
  /-- No escape names half of a surrogate pair: the halves would not be put together. -/
  whole : ∀ cs ∈ stringTails false text, namesHalf cs = false
  /-- Every name is on one line with its colon and not too far away from it. -/
  near : ∀ cs ∈ stringTails false text, isFarName cs = false

/-- What is behind the first tokens of a portable text is portable, if it does not start inside a string. -/
theorem IsPortable.right {u v : List Char} (h : IsPortable (u ++ v))
    (htails : stringTails false v ⊆ stringTails false (u ++ v)) : IsPortable v where
  noTab := fun ht => h.noTab (List.mem_append_right u ht)
  allowed := fun x hx => h.allowed x (List.mem_append_right u hx)
  unfolded := h.unfolded.right
  whole := fun cs hcs => h.whole cs (htails hcs)
  near := fun cs hcs => h.near cs (htails hcs)

/-- What is behind an opening quote goes up to the end of the text. -/
theorem suffix_of_mem_stringTails {inside : Bool} {text cs : List Char} (h : cs ∈ stringTails inside text) :
    cs <:+ text := by
  fun_induction stringTails inside text with
  | case1 => cases h
  | case2 x text ih => exact (ih h).trans ⟨['\\', x], rfl⟩
  | case3 text ih => exact (ih h).trans ⟨['"'], rfl⟩
  | case4 text ih =>
    rcases List.mem_cons.mp h with rfl | h
    · exact ⟨['"'], rfl⟩
    · exact (ih h).trans ⟨['"'], rfl⟩
  | case5 inside x text _ _ _ ih => exact (ih h).trans ⟨[x], rfl⟩

theorem stringTails_cons {x : Char} (hx : x ≠ '"') (r : List Char) :
    stringTails false (x :: r) = stringTails false r := by
  rw [stringTails] <;> simp [hx]

/-- There is no string in white space. -/
theorem stringTails_space {a : List Char} (ha : IsSpace a) (r : List Char) :
    stringTails false (a ++ r) = stringTails false r := by
  induction a with
  | nil => rfl
  | cons x a ih =>
    have hx : x ≠ '"' := by
      rintro rfl
      exact absurd (ha '"' List.mem_cons_self) (by decide)
    rw [List.cons_append, stringTails_cons hx, ih fun y hy => ha y (List.mem_cons_of_mem x hy)]

theorem IsPortable.of_cons {x : Char} {r : List Char} (h : IsPortable (x :: r)) (hx : x ≠ '"') : IsPortable r :=
  h.right (u := [x]) (by rw [List.singleton_append, stringTails_cons hx]; exact fun _ => id)

theorem IsPortable.of_space {a r : List Char} (h : IsPortable (a ++ r)) (ha : IsSpace a) : IsPortable r :=
  h.right (by rw [stringTails_space ha]; exact fun _ => id)

theorem stringTails_quote (r : List Char) : stringTails false ('"' :: r) = r :: stringTails true r := by
  rw [stringTails]

theorem stringTails_plain {x : Char} (hq : x ≠ '"') (hb : x ≠ '\\') (r : List Char) :
    stringTails true (x :: r) = stringTails true r := by
  rw [stringTails] <;> simp [hq, hb]

/-- Behind a string there is what is behind its closing quote. -/
theorem stringTails_of_spells {w : List Char} {ns : List Nat} (h : Spells w ns) (r : List Char) :
    stringTails true (w ++ r) = stringTails false r := by
  induction h with
  | close => rw [List.singleton_append, stringTails]
  | plain hq hb hc h ih => rw [List.cons_append, stringTails_plain hq hb, ih]
  | letter hu hx h ih => rw [List.cons_append, List.cons_append, stringTails, ih]
  | @code a b c d n w ns hn h ih =>
    have hdigit : ∀ x ∈ [a, b, c, d], x ≠ '"' ∧ x ≠ '\\' := by
      intro x hx
      have hsome := isSome_hexValue?_of_mem hn hx
      constructor
      · rintro rfl
        exact absurd hsome (by decide)
      · rintro rfl
        exact absurd hsome (by decide)
    simp only [List.forall_mem_cons] at hdigit
    obtain ⟨ha, hb, hc, hd, -⟩ := hdigit
    simp only [List.cons_append]
    rw [stringTails, stringTails_plain ha.1 ha.2, stringTails_plain hb.1 hb.2, stringTails_plain hc.1 hc.2,
      stringTails_plain hd.1 hd.2, ih]

/-! ## Strings -/

/-- The code points of a string without halves of surrogate pairs are those of its text. -/
theorem spells_of_isStringBody {w r : List Char} {s : String} (h : IsStringBody w s)
    (hwhole : namesHalf (w ++ r) = false) : Spells w (CodePoints.ofString s).points := by
  obtain ⟨ns, hw, hs⟩ := h.exists_spells
  have hread := hw.stringPoints (w ++ r).length r
  have hnone : ns.any CodePoints.isHalf = false := by simpa only [namesHalf, hread] using hwhole
  have htext : (⟨ns⟩ : CodePoints).toString? = some (String.ofList (ns.map Char.ofNat)) := by
    rw [CodePoints.toString?, if_neg (Bool.eq_false_iff.mp hnone)]
  obtain ⟨t, ht⟩ := CodePoints.exists_ofString (p := ⟨ns⟩) (bounded_stringPoints hread) htext
  rw [ht, CodePoints.joined_ofString, CodePoints.inBytes_ofString] at hs
  rw [← hs, ← ht]
  exact hw

theorem isQuoted_of_isStringBody {w r : List Char} {s : String} (h : IsStringBody w s)
    (hwhole : namesHalf (w ++ r) = false) (hunfolded : IsUnfolded (w ++ r)) : IsQuoted w s := by
  have hw := spells_of_isStringBody h hwhole
  exact ⟨hw, hunfolded.left (getLast?_of_spells hw)⟩

/-- A name that is not far from its colon. -/
theorem near_of_not_isFarName {n a r : List Char} {name : String} (hn : IsStringBody n name) (ha : IsSpace a)
    (h : isFarName (n ++ (a ++ ':' :: r)) = false) :
    n.length + a.length < 1024 ∧ ∀ y ∈ n ++ a, isBreak y = false ∧ y ≠ '\r' := by
  obtain ⟨ns, hw, -⟩ := hn.exists_spells
  have hread := hw.stringPoints (n ++ (a ++ ':' :: r)).length (a ++ ':' :: r)
  have hcolon : skipSpace (a ++ ':' :: r) = ':' :: r := skipSpace_append ha (by decide) r
  have hbefore : (n ++ (a ++ ':' :: r)).take ((n ++ (a ++ ':' :: r)).length - (':' :: r).length) = n ++ a := by
    rw [← List.append_assoc, List.length_append, Nat.add_sub_cancel, List.take_left]
  simp only [isFarName, hread, hcolon, hbefore] at h
  simp only [List.head?_cons, beq_self_eq_true, Bool.true_and, Bool.or_eq_false_iff, decide_eq_false_iff_not] at h
  obtain ⟨hlines, hfar⟩ := h
  rw [List.length_append] at hfar
  refine ⟨by omega, fun y hy => ?_⟩
  simpa using List.any_eq_false.mp hlines y hy

/-! ## Grammars -/

/-- White space without tabs is a gap, once its line breaks are LF. -/
theorem isGap_normalizeNewlines {a : List Char} (ha : IsSpace a) (htab : '\t' ∉ a) : IsGap (normalizeNewlines a) := by
  intro y hy
  have hcr : y ≠ '\r' := fun h => not_mem_normalizeNewlines a (h ▸ hy)
  rcases mem_normalizeNewlines hy with hmem | hnewline
  · have hspace := ha y hmem
    have ht : y ≠ '\t' := fun h => htab (h ▸ hmem)
    simpa [isJsonSpace, ht, hcr] using hspace
  · exact .inr hnewline

theorem IsQuoted.not_mem {w : List Char} {s : String} (h : IsQuoted w s) : '\r' ∉ w :=
  fun hr => not_control_of_spells h.spelled '\r' hr (by decide)

/-- What stands behind the opening quotes of a member, and of what follows it. -/
theorem stringTails_member {n a b x c r : List Char} {name value : String} (hn : IsStringBody n name) (ha : IsSpace a)
    (hb : IsSpace b) (hx : IsStringBody x value) (hc : IsSpace c) :
    stringTails false ('"' :: (n ++ (a ++ ':' :: (b ++ '"' :: (x ++ c)))) ++ r) =
      (n ++ (a ++ ':' :: (b ++ '"' :: (x ++ (c ++ r))))) :: (x ++ (c ++ r)) :: stringTails false r := by
  obtain ⟨ns, hspells, -⟩ := hn.exists_spells
  obtain ⟨xs, hspells', -⟩ := hx.exists_spells
  simp only [List.cons_append, List.append_assoc]
  rw [stringTails_quote, stringTails_of_spells hspells, stringTails_space ha, stringTails_cons (by decide),
    stringTails_space hb, stringTails_quote, stringTails_of_spells hspells', stringTails_space hc]

/-- **A member of a portable text is one of YAML.** -/
theorem IsPortable.quotedMember {w r : List Char} {e : String × String} (hw : FlatMember w e)
    (h : IsPortable (w ++ r)) : QuotedMember (normalizeNewlines w) e := by
  cases hw with
  | @mk n a b x c name value hn ha hb hx hc =>
    have htails := stringTails_member (r := r) hn ha hb hx hc
    have hquoted : ∀ {u v : List Char} {s : String}, IsStringBody u s →
        u ++ v ∈ stringTails false ('"' :: (n ++ (a ++ ':' :: (b ++ '"' :: (x ++ c)))) ++ r) → IsQuoted u s :=
      fun hu hmem => isQuoted_of_isStringBody hu (h.whole _ hmem) (h.unfolded.suffix (suffix_of_mem_stringTails hmem))
    have hname := hquoted hn (htails ▸ List.mem_cons_self)
    have hvalue := hquoted hx (htails ▸ List.mem_cons_of_mem _ List.mem_cons_self)
    obtain ⟨hnear, hline⟩ := near_of_not_isFarName hn ha (h.near _ (htails ▸ List.mem_cons_self))
    obtain ⟨hlineName, hlineGap⟩ := List.forall_mem_append.mp hline
    have hspaces : ∀ y ∈ a, y = ' ' := by
      intro y hy
      have hspace := ha y hy
      have htab : y ≠ '\t' := fun ht => h.noTab (ht ▸ by simp [hy])
      have hnewline : y ≠ '\n' := by
        rintro rfl
        exact absurd (hlineGap '\n' hy).1 (by decide)
      simpa [isJsonSpace, htab, hnewline, (hlineGap y hy).2] using hspace
    have hcr : '\r' ∉ a := fun hr => (hlineGap '\r' hr).2 rfl
    have hnormal : normalizeNewlines ('"' :: (n ++ (a ++ ':' :: (b ++ '"' :: (x ++ c))))) =
        '"' :: (n ++ (a ++ ':' :: (normalizeNewlines b ++ '"' :: (x ++ normalizeNewlines c)))) := by
      rw [normalizeNewlines_cons (by decide), normalizeNewlines_append_of_not_mem hname.not_mem,
        normalizeNewlines_append_of_not_mem hcr, normalizeNewlines_cons (by decide),
        normalizeNewlines_append_of_head? b (by simp), normalizeNewlines_cons (by decide),
        normalizeNewlines_append_of_not_mem hvalue.not_mem]
    have hbefore : IsGap (normalizeNewlines b) := isGap_normalizeNewlines hb fun ht => h.noTab (by simp [ht])
    have hbehind : IsGap (normalizeNewlines c) := isGap_normalizeNewlines hc fun ht => h.noTab (by simp [ht])
    rw [hnormal]
    exact .mk hname (fun y hy => (hlineName y hy).1) hspaces hnear hbefore hvalue hbehind

theorem stringTails_flatMember {w : List Char} {e : String × String} (hw : FlatMember w e) (r : List Char) :
    stringTails false r ⊆ stringTails false (w ++ r) := by
  cases hw with
  | mk hn ha hb hx hc =>
    rw [stringTails_member hn ha hb hx hc]
    exact fun cs hcs => List.mem_cons_of_mem _ (List.mem_cons_of_mem _ hcs)

/-- **The members of a portable text are those of YAML**, by induction on the members. -/
theorem IsPortable.quotedMembers {ws r : List Char} {es : List (String × String)} (hws : FlatMembers ws es)
    (h : IsPortable (ws ++ r)) : QuotedMembers (normalizeNewlines ws) es := by
  induction hws with
  | @last w e hw =>
    rw [List.append_assoc] at h
    rw [normalizeNewlines_append_of_head? w (by simp)]
    exact .last (h.quotedMember hw)
  | @more w g ws e es hw hg hws ih =>
    rw [List.append_assoc, List.cons_append, List.append_assoc] at h
    have hrest : IsPortable (ws ++ r) := by
      have hcomma := h.right (stringTails_flatMember hw (',' :: (g ++ (ws ++ r))))
      exact (hcomma.of_cons (by decide)).of_space hg
    obtain ⟨cs, hquote⟩ := hws.exists_cons
    rw [normalizeNewlines_append_of_head? w (by simp), normalizeNewlines_cons (by decide),
      normalizeNewlines_append_of_head? g (by simp [hquote])]
    exact .more (h.quotedMember hw) (isGap_normalizeNewlines hg fun ht => h.noTab (by simp [ht])) (ih hrest)

/-- **A portable object of strings is a mapping of strings**, once its line breaks are LF. -/
theorem IsPortable.quotedText {text : List Char} {es : List (String × String)} (h : IsPortable text)
    (htext : FlatText text es) : QuotedText (normalizeNewlines text) es := by
  obtain ⟨a, o, b, ha, hb, rfl, ho⟩ := htext
  obtain ⟨cs, hbrace⟩ := ho.exists_cons
  have hlast : o.getLast? ≠ some '\r' := by
    rw [ho.getLast?]
    decide
  have hobject : IsPortable (o ++ b) := h.of_space ha
  have hgap : ∀ {c : List Char}, IsSpace c → c ⊆ a ++ (o ++ b) → IsGap (normalizeNewlines c) := fun hc hsub =>
    isGap_normalizeNewlines hc fun ht => h.noTab (hsub ht)
  rw [normalizeNewlines_append_of_head? a (by simp [hbrace]), normalizeNewlines_append fun hr => absurd hr hlast]
  refine ⟨_, _, _, hgap ha (by simp), hgap hb (by simp), rfl, ?_⟩
  cases ho with
  | @empty g hg =>
    rw [normalizeNewlines_cons (by decide), normalizeNewlines_append_of_head? g (by simp)]
    exact .empty (hgap hg fun y hy => by simp [hy])
  | @members g ws es hg hws =>
    obtain ⟨_, hquote⟩ := hws.exists_cons
    have hmembers : IsPortable (ws ++ b) := by
      rw [List.cons_append, List.append_assoc] at hobject
      exact (hobject.of_cons (by decide)).of_space hg
    rw [normalizeNewlines_cons (by decide), normalizeNewlines_append_of_head? g (by simp [hquote])]
    exact .members (hgap hg fun y hy => by simp [hy]) (hmembers.quotedMembers hws)

/-- Every character of a portable text is allowed, also once its line breaks are LF. -/
theorem IsPortable.isAllowed_of_mem {text : List Char} (h : IsPortable text) :
    ∀ x ∈ normalizeNewlines text, isAllowed x = true := by
  intro x hx
  rcases mem_normalizeNewlines hx with hx | rfl
  · exact h.allowed x hx
  · rfl

end Stencil.Yaml
