import Stencil.Proofs.Yaml.Quoted
import Stencil.Yaml.Token

/-!
# `Stencil.Proofs.Yaml.Scanner` — the tokens of a mapping of strings in braces

## Contents
- **Gaps.** Spaces and line breaks are passed over.
- **Candidates.** Outside block collections no token has to be a key; those that are stale are forgotten.
- **Steps.** A token behind a gap is read by one step.
- **Signs and strings.** What each token of a mapping in braces adds; `InMapping` is what holds between two of them.
- **Mappings.** The tokens of a member and of a whole text, by induction on its grammar.
-/

namespace Stencil.Yaml

open Text Json

/-! ## Gaps -/

/-- Spaces and newlines. -/
def IsGap (a : List Char) : Prop := ∀ x ∈ a, x = ' ' ∨ x = '\n'

/-- A character that ends a gap and starts no comment. -/
def StopsGap (x : Char) : Prop := x ≠ ' ' ∧ x ≠ '#' ∧ isBreak x = false

namespace Scanner

variable {s s' : Scanner} {a r : List Char} {x : Char}

/-- The scanner behind a gap. Outside of flow collections a key may start in a new line. -/
def pastGap (s : Scanner) (a : List Char) : Scanner :=
  { s with
    cursor := s.cursor.advance a.length
    keyAllowed := s.keyAllowed || (s.inBlock && a.any isBreak) }

/-- **A gap is passed over.** -/
theorem skipGap_eq (ha : IsGap a) (hr : ∀ x ∈ r.head?, StopsGap x) (hrest : s.cursor.rest = a ++ r) {fuel : Nat}
    (hfuel : a.length < fuel) : skipGap fuel s = s.pastGap a := by
  obtain ⟨fuel, rfl⟩ : ∃ m, fuel = m + 1 := ⟨fuel - 1, by omega⟩
  induction a generalizing s fuel with
  | nil =>
    rw [List.nil_append] at hrest
    have hspace : s.cursor.skip (· == ' ') = s.cursor := Cursor.skip_of_neg fun x hx => by
      simpa using (hr x (hrest ▸ hx)).1
    have hcomment : s.cursor.skipComment = s.cursor := Cursor.skipComment_of_ne fun h =>
      (hr '#' (by rw [← hrest, h]; rfl)).2.1 rfl
    have hbreak : s.cursor.lineBreak? = none := Cursor.lineBreak?_eq_none fun x hx => (hr x (hrest ▸ hx)).2.2
    simp [skipGap, pastGap, hspace, hcomment, hbreak, moveTo, Cursor.advance]
  | cons x a ih =>
    have hgap : IsGap a := fun y hy => ha y (List.mem_cons_of_mem x hy)
    have hnext : s.cursor.next.rest = a ++ r := by rw [Cursor.rest_next, hrest]; rfl
    rcases ha x List.mem_cons_self with rfl | rfl
    · -- a space costs no call: the scanner behind it does the same
      have hskip : skipGap (fuel + 1) s = skipGap (fuel + 1) (s.moveTo s.cursor.next) := by
        rw [skipGap, skipGap, Cursor.skip_cons_of_pos hrest rfl]
        rfl
      rw [hskip, ih hgap (s := s.moveTo s.cursor.next) hnext _ (by simp at hfuel; omega)]
      simp [pastGap, moveTo, inBlock, Cursor.advance, isBreak]
    · have hspace : s.cursor.skip (· == ' ') = s.cursor := Cursor.skip_of_neg (by simp [hrest])
      have hcomment : s.cursor.skipComment = s.cursor := Cursor.skipComment_of_ne (by simp [hrest])
      have hbreak : s.cursor.lineBreak? = some ('\n', s.cursor.next) := by simp [Cursor.lineBreak?, hrest, isBreak]
      obtain ⟨fuel, rfl⟩ : ∃ m, fuel = m + 1 := ⟨fuel - 1, by simp at hfuel; omega⟩
      rw [skipGap, hspace, hcomment, hbreak]
      simp only
      rw [ih hgap (s := { s with cursor := s.cursor.next, keyAllowed := s.keyAllowed || s.inBlock }) hnext _
        (by simp at hfuel; omega)]
      have hallowed : (s.keyAllowed || s.inBlock || (s.inBlock && a.any isBreak)) =
          (s.keyAllowed || (s.inBlock && ('\n' :: a).any isBreak)) := by
        cases s.inBlock <;> simp [isBreak]
      rw [pastGap, pastGap, ← hallowed]
      rfl

/-! ## Candidates -/

/-- Whether a candidate is on the line of a place and not too far back. -/
def isFresh (c : Cursor) (k : Candidate) : Bool := k.line == c.line && c.index - k.index ≤ 1024

/-- Forgets the candidates that are stale at a place. -/
def freshen (c : Cursor) (ks : List (Option Candidate)) : List (Option Candidate) := ks.map (·.filter (isFresh c))

/-- No block collection is open, and no token has to be a key. -/
structure IsLoose (s : Scanner) : Prop where
  /-- There are no block collections around. -/
  outer : s.outer = []
  /-- No candidate has to be a key. -/
  unneeded : ∀ k, some k ∈ s.candidates → k.needed = false

theorem unneeded_freshen {ks : List (Option Candidate)} (h : ∀ k, some k ∈ ks → k.needed = false) (c : Cursor) :
    ∀ k, some k ∈ freshen c ks → k.needed = false := by
  intro k hk
  obtain ⟨k', hmem, hk'⟩ := List.mem_map.mp hk
  obtain ⟨rfl, -⟩ := Option.filter_eq_some_iff.mp hk'
  exact h k hmem

theorem dropStale_eq {ks : List (Option Candidate)} (h : ∀ k, some k ∈ ks → k.needed = false) (c : Cursor) :
    dropStale c ks = .ok (freshen c ks) := by
  induction ks with
  | nil => rfl
  | cons k ks ih =>
    have hrest := ih fun l hl => h l (List.mem_cons_of_mem k hl)
    cases k with
    | none =>
      rw [dropStale, hrest]
      rfl
    | some k =>
      have hk : k.needed = false := h k List.mem_cons_self
      rw [dropStale, hrest, hk]
      by_cases hstale : k.line ≠ c.line ∨ 1024 < c.index - k.index
      · have hfresh : isFresh c k = false := by
          simp only [isFresh, Bool.and_eq_false_iff, beq_eq_false_iff_ne, decide_eq_false_iff_not]
          omega
        simp [hstale, freshen, hfresh, Except.map, Option.filter_some]
      · have hfresh : isFresh c k = true := by
          simp only [isFresh, Bool.and_eq_true, beq_iff_eq, decide_eq_true_eq]
          omega
        simp [hstale, freshen, hfresh, Except.map, Option.filter_some]

/-- The scanner without the candidates that are stale at its place. -/
def refresh (s : Scanner) : Scanner := { s with candidates := freshen s.cursor s.candidates }

/-- The scanner at the token behind a gap. -/
def atToken (s : Scanner) (a : List Char) : Scanner := (s.refresh.pastGap a).refresh

theorem IsLoose.refresh (h : s.IsLoose) : s.refresh.IsLoose := ⟨h.outer, unneeded_freshen h.unneeded s.cursor⟩

theorem IsLoose.pastGap (h : s.IsLoose) (a : List Char) : (s.pastGap a).IsLoose := ⟨h.outer, h.unneeded⟩

theorem IsLoose.atToken (h : s.IsLoose) (a : List Char) : (s.atToken a).IsLoose := (h.refresh.pastGap a).refresh

theorem IsLoose.unwind (h : s.IsLoose) (column : Int) : s.unwind column = s := by
  rw [Scanner.unwind, h.outer, unwindTo]
  exact ite_self s

/-- The candidate of the innermost level can be forgotten. -/
theorem IsLoose.dropCandidate (h : s.IsLoose) :
    s.dropCandidate = .ok { s with candidates := s.candidates.set 0 none } := by
  rcases hc : s.candidates with _ | ⟨_ | k, ks⟩
  · simp only [Scanner.dropCandidate, hc]
    rw [List.set_nil, ← hc]
  · simp only [Scanner.dropCandidate, hc]
    rw [List.set_cons_zero, ← hc]
  · have hk : k.needed = false := h.unneeded k (hc ▸ List.mem_cons_self)
    simp [Scanner.dropCandidate, hc, hk]

/-! ## Steps -/

/-- Behind the gap a step goes by the next character. -/
theorem step_eq {t : Scanner} (hgap : skipGap s.cursor.fuel s = t) (ht : t.IsLoose) :
    s.step =
      match t.cursor.peek with
      | none => t.refresh.endBlocks.map fun s => (s, false)
      | some x => (t.refresh.token x).map fun s => (s, true) := by
  rw [step, hgap]
  simp only [dropStale_eq ht.unneeded]
  rw [IsLoose.unwind (s := { t with candidates := freshen t.cursor t.candidates }) ht.refresh]
  rfl

theorem step_refresh (h : s.IsLoose) (ha : IsGap a) (hr : ∀ x ∈ r.head?, StopsGap x) (hrest : s.cursor.rest = a ++ r) :
    s.refresh.step =
      match r.head? with
      | none => (s.atToken a).endBlocks.map fun s => (s, false)
      | some x => ((s.atToken a).token x).map fun s => (s, true) := by
  have hfuel : a.length < s.refresh.cursor.fuel := by
    rw [refresh, Cursor.fuel, hrest, List.length_append]
    omega
  have hpeek : (s.refresh.pastGap a).cursor.peek = r.head? := by
    rw [Cursor.peek_zero]
    exact congrArg List.head? (Cursor.rest_advance_append hrest)
  rw [step_eq (skipGap_eq (s := s.refresh) ha hr hrest hfuel) (h.refresh.pastGap a), hpeek]
  rfl

/-- **A token is read.** -/
theorem scan_token (h : s.IsLoose) (ha : IsGap a) (hx : StopsGap x) (hrest : s.cursor.rest = a ++ x :: r)
    (htoken : (s.atToken a).token x = .ok s') (fuel : Nat) : scan (fuel + 1) s = scan fuel s' := by
  have hstep := step_refresh h ha (r := x :: r) (by simpa using hx) hrest
  rw [List.head?_cons, refresh] at hstep
  rw [scan, dropStale_eq h.unneeded]
  simp only [hstep, htoken]
  rfl

/-- **The text ends.** -/
theorem scan_end (h : s.IsLoose) (ha : IsGap s.cursor.rest) (fuel : Nat) : scan (fuel + 1) s = .ok s.tokens := by
  have hstep := step_refresh h ha (r := []) (by simp) (List.append_nil _).symm
  have hloose := h.atToken s.cursor.rest
  rw [List.head?_nil, refresh] at hstep
  rw [scan, dropStale_eq h.unneeded]
  simp only [hstep, endBlocks, hloose.unwind, hloose.dropCandidate]
  rfl

/-! ## Signs and strings -/

section Signs

variable {t : Scanner}

theorem seesMarker_eq_false {c : Cursor} {y : Char} (h : c.rest = x :: r) (hx : x ≠ y) : c.seesMarker y = false := by
  simp [Cursor.seesMarker, h, hx]

theorem token_openingBrace (h : t.cursor.rest = '{' :: r) : t.token '{' = t.flowStart .flowMappingStart := by
  simp [token, seesMarker_eq_false h]

theorem token_closingBrace (h : t.cursor.rest = '}' :: r) : t.token '}' = t.flowEnd .flowMappingEnd := by
  simp [token, seesMarker_eq_false h]

theorem token_comma (h : t.cursor.rest = ',' :: r) : t.token ',' = t.comma := by
  simp [token, seesMarker_eq_false h]

theorem token_colon (h : t.cursor.rest = ':' :: r) (hflow : t.inBlock = false) : t.token ':' = t.colon := by
  simp [token, seesMarker_eq_false h, hflow]

theorem token_quote (h : t.cursor.rest = '"' :: r) : t.token '"' = t.quotedScalar '"' := by
  simp [token, seesMarker_eq_false h]

end Signs

/-- The scanner between two tokens directly inside a mapping that is in no other collection: `ts` are the tokens so far,
    `r` is left of the text. -/
structure InMapping (s : Scanner) (ts : List Token) (r : List Char) : Prop where
  /-- The tokens so far. -/
  recent : s.recent = ts.reverse
  /-- Their number. -/
  count : s.count = ts.length
  /-- Only the mapping is open. -/
  level : s.flowLevel = 1
  /-- There are a level inside the mapping and one around it. -/
  levels : ∃ key around, s.candidates = [key, around]
  /-- No token has to be a key. -/
  loose : s.IsLoose
  /-- What is left. -/
  rest : s.cursor.rest = r

/-- The scanner behind a scalar that may turn out to be a key and starts `n` characters back. -/
structure BehindName (s : Scanner) (ts : List Token) (name : CodePoints) (n : Nat) (r : List Char) : Prop
    extends InMapping s (ts ++ [.scalar (.styled name)]) r where
  /-- The scalar is the candidate. -/
  candidate : ∃ k around, s.candidates = [some k, around] ∧ k.position = ts.length ∧ k.line = s.cursor.line ∧
    s.cursor.index = k.index + n

namespace InMapping

variable {ts : List Token} {w : List Char} {ns : List Nat}

theorem inBlock (h : s.InMapping ts r) : s.inBlock = false := by
  rw [Scanner.inBlock, h.level]
  rfl

/-- At the next token there are still two levels. -/
theorem levels_atToken (h : s.InMapping ts r) (a : List Char) :
    ∃ key around, (s.atToken a).candidates = [key, around] := by
  obtain ⟨key, around, hlevels⟩ := h.levels
  have hfresh : (s.atToken a).candidates = freshen (s.cursor.advance a.length) (freshen s.cursor [key, around]) := by
    rw [← hlevels]
    rfl
  exact ⟨_, _, hfresh⟩

/-- What it takes to be behind one more token. -/
theorem push {t : Token} {key around : Option Candidate} (h : s.InMapping ts (a ++ (w ++ r)))
    (hrecent : s'.recent = t :: s.recent) (hcount : s'.count = s.count + 1)
    (hcursor : s'.cursor = (s.cursor.advance a.length).advance w.length) (hlevel : s'.flowLevel = s.flowLevel)
    (houter : s'.outer = s.outer) (hlevels : s'.candidates = [key, around])
    (hunneeded : ∀ k, some k ∈ [key, around] → k.needed = false) : s'.InMapping (ts ++ [t]) r where
  recent := by rw [hrecent, h.recent, List.reverse_append]; rfl
  count := by rw [hcount, h.count, List.length_append]; rfl
  level := hlevel.trans h.level
  levels := ⟨key, around, hlevels⟩
  loose := ⟨houter.trans h.loose.outer, hlevels ▸ hunneeded⟩
  rest := by rw [hcursor]; exact Cursor.rest_advance_append (Cursor.rest_advance_append h.rest)

/-- A comma, behind which a key may start. -/
theorem comma (h : s.InMapping ts (a ++ ',' :: r)) (ha : IsGap a) (fuel : Nat) :
    ∃ s', scan (fuel + 1) s = scan fuel s' ∧ s'.InMapping (ts ++ [.comma]) r ∧ s'.keyAllowed = true := by
  have hloose := h.loose.atToken a
  obtain ⟨key, around, hlevels⟩ := h.levels_atToken a
  have hcomma : (s.atToken a).comma = .ok
      { s.atToken a with
        cursor := (s.cursor.advance a.length).advance 1, recent := .comma :: s.recent, count := s.count + 1
        keyAllowed := true, candidates := [none, around] } := by
    rw [Scanner.comma, hloose.dropCandidate, hlevels]
    rfl
  have hstep := scan_token h.loose ha ⟨by decide, by decide, rfl⟩ h.rest
    ((token_comma (Cursor.rest_advance_append h.rest)).trans hcomma) fuel
  refine ⟨_, hstep, h.push (w := [',']) rfl rfl rfl rfl rfl rfl fun k hk => hloose.unneeded k ?_, rfl⟩
  rw [hlevels]
  simp_all

/-- A scalar behind a colon. -/
theorem value (h : s.InMapping ts (a ++ '"' :: (w ++ r))) (hkey : s.keyAllowed = false) (ha : IsGap a)
    (hw : Spells w ns) (hunfolded : IsUnfolded w) (fuel : Nat) :
    ∃ s', scan (fuel + 1) s = scan fuel s' ∧ s'.InMapping (ts ++ [.scalar (.styled ⟨ns⟩)]) r := by
  have hrest := Cursor.rest_advance_append h.rest
  obtain ⟨key, around, hlevels⟩ := h.levels_atToken a
  have hnokey : (s.atToken a).keyAllowed = false := by
    show (s.keyAllowed || (s.inBlock && a.any isBreak)) = false
    rw [hkey, h.inBlock]
    rfl
  have hscalar : (s.atToken a).quotedScalar '"' = .ok
      { s.atToken a with
        cursor := (s.cursor.advance a.length).advance (w.length + 1)
        recent := .scalar (.styled ⟨ns⟩) :: s.recent, count := s.count + 1, keyAllowed := false } := by
    have hquoted : quoted '"' (s.atToken a).cursor = .ok (⟨ns⟩, (s.cursor.advance a.length).advance (w.length + 1)) :=
      quoted_of_spells hw hunfolded hrest
    simp only [quotedScalar, markCandidate, hnokey, Bool.false_eq_true, if_false, hquoted]
    rfl
  have hstep := scan_token h.loose ha ⟨by decide, by decide, rfl⟩ h.rest ((token_quote hrest).trans hscalar) fuel
  refine ⟨_, hstep, h.push (w := '"' :: w) rfl rfl rfl rfl rfl hlevels fun k hk => (h.loose.atToken a).unneeded k ?_⟩
  rw [hlevels]
  exact hk

/-- A scalar on one line where a key may start. -/
theorem name (h : s.InMapping ts (a ++ '"' :: (w ++ r))) (hkey : s.keyAllowed = true) (ha : IsGap a)
    (hw : Spells w ns) (hunfolded : IsUnfolded w) (hline : ∀ x ∈ w, isBreak x = false) (fuel : Nat) :
    ∃ s', scan (fuel + 1) s = scan fuel s' ∧ s'.BehindName ts ⟨ns⟩ (w.length + 1) r := by
  have hrest := Cursor.rest_advance_append h.rest
  have hloose := h.loose.atToken a
  obtain ⟨key, around, hlevels⟩ := h.levels_atToken a
  have hallowed : (s.atToken a).keyAllowed = true := by
    show (s.keyAllowed || (s.inBlock && a.any isBreak)) = true
    rw [hkey, Bool.true_or]
  let place := s.cursor.advance a.length
  let k : Candidate :=
    { position := s.count, needed := false, index := place.index, line := place.line, column := place.column }
  have hmark : (s.atToken a).markCandidate = .ok { s.atToken a with candidates := [some k, around] } := by
    have hneeded : ∀ b, ((s.atToken a).inBlock && b) = false := fun b => by
      rw [show (s.atToken a).inBlock = s.inBlock from rfl, h.inBlock, Bool.false_and]
    rw [markCandidate, if_pos hallowed, hloose.dropCandidate, hlevels]
    simp only [List.set_cons_zero, List.drop_one, List.tail_cons]
    rw [show ({ s.atToken a with candidates := [none, around] } : Scanner).inBlock = (s.atToken a).inBlock from rfl,
      hneeded]
    rfl
  have hscalar : (s.atToken a).quotedScalar '"' = .ok
      { s.atToken a with
        cursor := place.advance (w.length + 1), recent := .scalar (.styled ⟨ns⟩) :: s.recent, count := s.count + 1
        keyAllowed := false, candidates := [some k, around] } := by
    have hquoted : quoted '"' place = .ok (⟨ns⟩, place.advance (w.length + 1)) := quoted_of_spells hw hunfolded hrest
    rw [quotedScalar, hmark]
    simp only [show (s.atToken a).cursor = place from rfl, hquoted]
    rfl
  have hstep := scan_token h.loose ha ⟨by decide, by decide, rfl⟩ h.rest ((token_quote hrest).trans hscalar) fuel
  refine ⟨_, hstep, h.push (w := '"' :: w) rfl rfl rfl rfl rfl rfl fun k' hk => ?_, k, around, rfl, h.count, ?_, ?_⟩
  · rcases List.mem_cons.mp hk with hk | hk
    · rw [Option.some.inj hk]
    · exact hloose.unneeded k' (hlevels ▸ List.mem_cons_of_mem key hk)
  · exact (Cursor.line_advance (w := '"' :: w) hrest fun x hx => by
      rcases List.mem_cons.mp hx with rfl | hx
      · rfl
      · exact hline x hx).symm
  · exact Cursor.index_advance (w := '"' :: w) hrest

end InMapping

/-- A colon on the same line and not too far away makes the scalar a key. -/
theorem BehindName.colon {ts : List Token} {name : CodePoints} {n : Nat}
    (h : s.BehindName ts name n (a ++ ':' :: r)) (ha : ∀ x ∈ a, x = ' ') (hnear : n + a.length ≤ 1024) (fuel : Nat) :
    ∃ s', scan (fuel + 1) s = scan fuel s' ∧ s'.InMapping (ts ++ [.key, .scalar (.styled name), .value]) r ∧
      s'.keyAllowed = false := by
  obtain ⟨k, around, hlevels, hposition, hline, hindex⟩ := h.candidate
  have hrest := Cursor.rest_advance_append h.rest
  have hfresh : isFresh s.cursor k = true ∧ isFresh (s.cursor.advance a.length) k = true := by
    have hline' : (s.cursor.advance a.length).line = s.cursor.line :=
      Cursor.line_advance h.rest fun x hx => by rw [ha x hx]; rfl
    have hindex' : (s.cursor.advance a.length).index = s.cursor.index + a.length := Cursor.index_advance h.rest
    simp only [isFresh, hline', hindex', hline, hindex, Bool.and_eq_true, beq_iff_eq, decide_eq_true_eq, true_and]
    omega
  -- the candidate of the mapping is kept, that around it may be stale
  have hkey : ∃ around', (s.atToken a).candidates = [some k, around'] := by
    have hcandidates : (s.atToken a).candidates =
        freshen (s.cursor.advance a.length) (freshen s.cursor [some k, around]) := by
      rw [← hlevels]
      rfl
    rw [hcandidates]
    simp [freshen, Option.filter_some, hfresh.1, hfresh.2]
  obtain ⟨around', hkey⟩ := hkey
  have hblock : (s.atToken a).inBlock = false := h.inBlock
  have hkeyed : ((s.atToken a).putBefore .key k.position).recent = .scalar (.styled name) :: .key :: ts.reverse := by
    have hone : s.count - k.position = 1 := by rw [h.count, hposition, List.length_append]; simp
    show s.recent.insertIdx (s.count - k.position) .key = _
    rw [hone, h.recent, List.reverse_append]
    rfl
  have hcolon : (s.atToken a).colon = .ok
      { s.atToken a with
        cursor := (s.cursor.advance a.length).advance 1
        recent := .value :: .scalar (.styled name) :: .key :: ts.reverse, count := s.count + 1 + 1
        keyAllowed := false, candidates := [none, around'] } := by
    rw [← hkeyed, Scanner.colon, hkey]
    refine congrArg Except.ok ?_
    dsimp only
    rw [if_neg]
    · rfl
    · exact Bool.eq_false_iff.mp hblock
  have hgap : IsGap a := fun x hx => .inl (ha x hx)
  have hstep := scan_token h.loose hgap ⟨by decide, by decide, rfl⟩ h.rest
    ((token_colon (t := s.atToken a) hrest hblock).trans hcolon) fuel
  refine ⟨_, hstep,
    { recent := ?_, count := ?_, level := h.level, levels := ⟨none, around', rfl⟩, loose := ?_, rest := ?_ }, rfl⟩
  · rw [List.reverse_append]
    rfl
  · simp [h.count]
  · refine ⟨h.loose.outer, fun k' hk => (h.loose.atToken a).unneeded k' ?_⟩
    rw [hkey]
    simp_all
  · exact Cursor.rest_advance_append (w := [':']) hrest

/-- The opening brace of a mapping that is in no other collection. -/
theorem scan_openingBrace {c : Cursor} (hrest : c.rest = a ++ '{' :: r) (ha : IsGap a) (fuel : Nat) :
    ∃ s', scan (fuel + 1) { cursor := c } = scan fuel s' ∧ s'.InMapping [.flowMappingStart] r ∧
      s'.keyAllowed = true := by
  let s : Scanner := { cursor := c }
  have hloose : s.IsLoose := ⟨rfl, by simp [s]⟩
  have hbrace := Cursor.rest_advance_append hrest
  let place := c.advance a.length
  let k : Candidate :=
    { position := 0, needed := false, index := place.index, line := place.line, column := place.column }
  have hstart : (s.atToken a).flowStart .flowMappingStart = .ok
      { s.atToken a with
        cursor := place.advance 1, recent := [.flowMappingStart], count := 1, flowLevel := 1, keyAllowed := true
        candidates := [none, some k] } := rfl
  have hstep := scan_token hloose ha ⟨by decide, by decide, rfl⟩ hrest
    ((token_openingBrace (t := s.atToken a) hbrace).trans hstart) fuel
  have hbehind : (place.advance 1).rest = r := Cursor.rest_advance_append (w := ['{']) hbrace
  exact ⟨_, hstep, ⟨rfl, rfl, rfl, ⟨none, some k, rfl⟩, ⟨rfl, by simp [k]⟩, hbehind⟩, rfl⟩

/-- The closing brace of the mapping. -/
theorem InMapping.closingBrace {ts : List Token} (h : s.InMapping ts (a ++ '}' :: r)) (ha : IsGap a) (fuel : Nat) :
    ∃ s', scan (fuel + 1) s = scan fuel s' ∧ s'.IsLoose ∧ s'.tokens = ts ++ [.flowMappingEnd] ∧ s'.cursor.rest = r := by
  have hrest := Cursor.rest_advance_append h.rest
  have hloose := h.loose.atToken a
  obtain ⟨key, around, hlevels⟩ := h.levels_atToken a
  have hend : (s.atToken a).flowEnd .flowMappingEnd = .ok
      { s.atToken a with
        cursor := (s.cursor.advance a.length).advance 1, recent := .flowMappingEnd :: s.recent, count := s.count + 1
        flowLevel := s.flowLevel - 1, keyAllowed := false, candidates := [around] } := by
    have hblock : (s.atToken a).inBlock = false := h.inBlock
    rw [flowEnd, hblock, hloose.dropCandidate, hlevels]
    rfl
  have hstep := scan_token h.loose ha ⟨by decide, by decide, rfl⟩ h.rest
    ((token_closingBrace (t := s.atToken a) hrest).trans hend) fuel
  refine ⟨_, hstep, ⟨h.loose.outer, fun k hk => hloose.unneeded k ?_⟩, ?_,
    Cursor.rest_advance_append (w := ['}']) hrest⟩
  · rw [hlevels]
    simp_all
  · rw [tokens, h.recent, List.reverse_cons, List.reverse_reverse]

end Scanner

/-! ## Mappings -/

/-- A string as it is spelled behind its opening quote, of which YAML keeps every character. -/
structure IsQuoted (w : List Char) (s : String) : Prop where
  /-- No half of a surrogate pair is named. -/
  spelled : Spells w (CodePoints.ofString s).points
  /-- Nothing in it is folded. -/
  unfolded : IsUnfolded w

/-- A member, name and value, as far as the comma or brace behind it. The name is on one line with its colon. -/
inductive QuotedMember : List Char → String × String → Prop
  | mk {n a b x c : List Char} {name value : String} (hn : IsQuoted n name)
      (hline : ∀ y ∈ n, isBreak y = false) (ha : ∀ y ∈ a, y = ' ') (hnear : n.length + a.length < 1024) (hb : IsGap b)
      (hx : IsQuoted x value) (hc : IsGap c) :
      QuotedMember ('"' :: (n ++ (a ++ ':' :: (b ++ '"' :: (x ++ c))))) (name, value)

/-- Members from the first name on, up to the closing brace. -/
inductive QuotedMembers : List Char → List (String × String) → Prop
  | last {w : List Char} {e : String × String} (hw : QuotedMember w e) : QuotedMembers (w ++ ['}']) [e]
  | more {w s ws : List Char} {e : String × String} {es : List (String × String)} (hw : QuotedMember w e)
      (hs : IsGap s) (hws : QuotedMembers ws es) : QuotedMembers (w ++ ',' :: (s ++ ws)) (e :: es)

theorem QuotedMembers.exists_cons {ws : List Char} {es : List (String × String)} (h : QuotedMembers ws es) :
    ∃ e es', es = e :: es' := by
  cases h <;> exact ⟨_, _, rfl⟩

/-- A mapping of strings in braces. -/
inductive QuotedMapping : List Char → List (String × String) → Prop
  | empty {s : List Char} (hs : IsGap s) : QuotedMapping ('{' :: (s ++ ['}'])) []
  | members {s ws : List Char} {es : List (String × String)} (hs : IsGap s) (hws : QuotedMembers ws es) :
      QuotedMapping ('{' :: (s ++ ws)) es

/-- A mapping of strings with gaps around it. -/
def QuotedText (text : List Char) (es : List (String × String)) : Prop :=
  ∃ a o b, IsGap a ∧ IsGap b ∧ text = a ++ (o ++ b) ∧ QuotedMapping o es

/-- The tokens of a member. -/
def memberTokens (e : String × String) : List Token :=
  [.key, .scalar (.styled (.ofString e.1)), .value, .scalar (.styled (.ofString e.2))]

/-- The tokens behind a member. -/
def furtherTokens (es : List (String × String)) : List Token :=
  es.flatMap (fun e => .comma :: memberTokens e) ++ [.flowMappingEnd]

@[simp] theorem furtherTokens_cons (e : String × String) (es : List (String × String)) :
    furtherTokens (e :: es) = .comma :: (memberTokens e ++ furtherTokens es) := by
  simp [furtherTokens]

/-- The tokens behind the opening brace. -/
def membersTokens : List (String × String) → List Token
  | [] => [.flowMappingEnd]
  | e :: es => memberTokens e ++ furtherTokens es

namespace Scanner

variable {s : Scanner} {ts : List Token} {a b w r : List Char}

/-- **A member is read** in three steps, as far as the gap behind it. -/
theorem InMapping.member {e : String × String} (hw : QuotedMember w e) (h : s.InMapping ts (a ++ (w ++ r)))
    (hkey : s.keyAllowed = true) (ha : IsGap a) {fuel : Nat} (hfuel : w.length ≤ fuel) :
    ∃ s' c fuel', scan fuel s = scan fuel' s' ∧ s'.InMapping (ts ++ memberTokens e) (c ++ r) ∧ IsGap c ∧
      fuel ≤ fuel' + w.length := by
  cases hw with
  | @mk n a' b x c name value hn hline ha' hnear hb hx hc =>
    simp only [List.length_cons, List.length_append] at hfuel ⊢
    simp only [List.cons_append, List.append_assoc] at h
    obtain ⟨fuel, rfl⟩ : ∃ m, fuel = m + 3 := ⟨fuel - 3, by omega⟩
    obtain ⟨s₁, hscan₁, hs₁⟩ := h.name hkey ha hn.spelled hn.unfolded hline (fuel + 2)
    obtain ⟨s₂, hscan₂, hs₂, hnokey⟩ := hs₁.colon ha' (by omega) (fuel + 1)
    obtain ⟨s₃, hscan₃, hs₃⟩ := hs₂.value hnokey hb hx.spelled hx.unfolded fuel
    rw [List.append_assoc] at hs₃
    exact ⟨s₃, c, fuel, by rw [hscan₁, hscan₂, hscan₃], hs₃, hc, by omega⟩

/-- The end of the mapping, and of the text. -/
theorem InMapping.finish (h : s.InMapping ts (a ++ '}' :: b)) (ha : IsGap a) (hb : IsGap b) {fuel : Nat}
    (hfuel : 2 ≤ fuel) : scan fuel s = .ok (ts ++ [.flowMappingEnd]) := by
  obtain ⟨fuel, rfl⟩ : ∃ m, fuel = m + 2 := ⟨fuel - 2, by omega⟩
  obtain ⟨s', hscan, hloose, htokens, hrest⟩ := h.closingBrace ha (fuel + 1)
  rw [hscan, scan_end hloose (hrest ▸ hb), htokens]

/-- **The members are read, one after the other.** -/
theorem scan_members {ws : List Char} {es : List (String × String)} (hws : QuotedMembers ws es)
    (h : s.InMapping ts (a ++ (ws ++ b))) (hkey : s.keyAllowed = true) (ha : IsGap a) (hb : IsGap b) {fuel : Nat}
    (hfuel : ws.length < fuel) : scan fuel s = .ok (ts ++ membersTokens es) := by
  induction hws generalizing s ts a fuel with
  | @last w e hw =>
    rw [List.append_assoc] at h
    rw [List.length_append, List.length_singleton] at hfuel
    have hfits : w.length ≤ fuel := by omega
    obtain ⟨s', c, fuel', hscan, hs', hc, hlt⟩ := h.member hw hkey ha hfits
    rw [hscan, hs'.finish hc hb (by omega), List.append_assoc]
    rfl
  | @more w g ws e es hw hg hws ih =>
    simp only [List.append_assoc, List.cons_append] at h
    simp only [List.length_append, List.length_cons] at hfuel
    have hfits : w.length ≤ fuel := by omega
    obtain ⟨s', c, fuel', hscan, hs', hc, hlt⟩ := h.member hw hkey ha hfits
    obtain ⟨fuel', rfl⟩ : ∃ m, fuel' = m + 1 := ⟨fuel' - 1, by omega⟩
    obtain ⟨s'', hscan', hs'', hkey'⟩ := hs'.comma hc fuel'
    obtain ⟨e', es, rfl⟩ := hws.exists_cons
    rw [hscan, hscan', ih hs'' hkey' hg (by omega)]
    simp [membersTokens]

end Scanner

/-- **The tokens of a mapping of strings in braces.** -/
theorem Token.ofText_quotedText {text : List Char} {es : List (String × String)} (h : QuotedText text es)
    (hallowed : ∀ c ∈ text, isAllowed c = true) : Token.ofText text = .ok (.flowMappingStart :: membersTokens es) := by
  obtain ⟨a, o, b, ha, hb, rfl, ho⟩ := h
  obtain ⟨cs, hbrace⟩ : ∃ cs, o = '{' :: cs := by cases ho <;> exact ⟨_, rfl⟩
  have hmark : (a ++ (o ++ b)).head? ≠ some '\ufeff' := by
    intro hbom
    cases a with
    | nil =>
      rw [hbrace] at hbom
      exact absurd (Option.some.inj hbom) (by decide)
    | cons x a =>
      have hx : x = '\ufeff' := Option.some.inj hbom
      rcases ha x List.mem_cons_self with rfl | rfl
      · exact absurd hx (by decide)
      · exact absurd hx (by decide)
  have hrest : (a ++ (o ++ b)) = a ++ '{' :: (cs ++ b) := by rw [hbrace, List.cons_append]
  obtain ⟨s, hscan, hs, hkey⟩ :=
    Scanner.scan_openingBrace (c := { rest := a ++ (o ++ b) }) hrest ha (a ++ (o ++ b)).length
  rw [Token.ofText, if_pos (List.all_eq_true.mpr hallowed)]
  simp only [Cursor.peek_zero, hmark, if_false, hscan]
  cases ho with
  | @empty g hg =>
    obtain rfl := (List.cons.inj hbrace).2
    rw [List.append_assoc] at hs
    exact hs.finish hg hb (by simp; omega)
  | @members g ws es hg hws =>
    obtain rfl := (List.cons.inj hbrace).2
    rw [List.append_assoc] at hs
    exact Scanner.scan_members hws hs hkey hg hb (by simp; omega)

end Stencil.Yaml
