import Stencil.Proofs.Json.Atoms

/-!
# `Stencil.Proofs.Json.RoundTrip` — values that are written and read

What `render` writes, in either style, `parse` reads back. This is said of the values without doubles; of
these, the only ones that are not read back are those with an integer of too many digits, and those that are nested
too deeply.

## Contents
- **Classes.** `Value.all` asks something of the values in a value that hold no others: to be no double, or
  no integer with too many digits.
- **Nesting.** Parameters are nested once at most.
- **Layout.** What stands inside brackets is a text for each item with white space and a comma or the closing
  bracket behind it (`Style.inside`).
- **One step.** What `items` and `members` do with the first item or member.
- **Values.** `value_render`, by induction over the value, and with it items and members.
- **Texts.** `parse_text`.
-/

namespace Stencil.Json

open Number Text

/-! ## Classes -/

namespace Value

mutual

/-- Whether the values in a value that hold no others all have a property. -/
def all (p : Value → Bool) : Value → Bool
  | .null => p .null
  | .bool b => p (.bool b)
  | .int n => p (.int n)
  | .float d => p (.float d)
  | .string s => p (.string s)
  | .array items => allItems p items
  | .object members => allMembers p members

/-- The same for items. -/
def allItems (p : Value → Bool) : List Value → Bool
  | [] => true
  | v :: vs => all p v && allItems p vs

/-- The same for the values of members. -/
def allMembers (p : Value → Bool) : List (String × Value) → Bool
  | [] => true
  | (_, v) :: ms => all p v && allMembers p ms

end

/-- Anything but a double. -/
def isExact : Value → Bool
  | .float _ => false
  | _ => true

/-- Anything but an integer with too many digits. -/
def isShort : Value → Bool
  | .int n => isWritable n
  | _ => true

theorem allItems_map {α : Type} {p : Value → Bool} {f : α → Value} (h : ∀ a, (f a).all p = true) (as : List α) :
    allItems p (as.map f) = true := by
  induction as with
  | nil => rfl
  | cons a as ih => rw [List.map_cons, allItems, h, ih]; rfl

theorem allMembers_map {α : Type} {p : Value → Bool} {name : α → String} {f : α → Value}
    (h : ∀ a, (f a).all p = true) (as : List α) : allMembers p (as.map fun a => (name a, f a)) = true := by
  induction as with
  | nil => rfl
  | cons a as ih => rw [List.map_cons, allMembers, h, ih]; rfl

/-- What holds of every string holds of a scope. -/
theorem all_toJson_scope {p : Value → Bool} (h : ∀ t, p (.string t) = true) (s : Scope) : s.toJson.all p = true :=
  allMembers_map (f := fun e : String × String => .string e.2) (fun e => h e.2) s.entries

/-! ## Nesting -/

/-- Parameters are nested once at most. -/
theorem nesting_toJson_scope (s : Scope) : s.toJson.nesting ≤ 1 := nestingMembers_strings s.entries

end Value

/-! ## Layout -/

theorem skipSpace_cons {c : Char} (h : isJsonSpace c = false) (cs : List Char) : skipSpace (c :: cs) = c :: cs :=
  List.dropWhile_cons_of_neg (by simp [h])

theorem isSpace_lineBreak (style : Style) (level : Nat) : IsSpace (style.lineBreak level) := by
  cases style with
  | compact => simp [Style.lineBreak, IsSpace]
  | indented =>
    intro c hc
    rcases List.mem_cons.mp hc with rfl | hc
    · decide
    · rw [List.eq_of_mem_replicate hc]
      decide

theorem colon_eq (style : Style) : ∃ w, IsSpace w ∧ style.colon = ':' :: w := by
  cases style with
  | compact => exact ⟨[], by simp [IsSpace], rfl⟩
  | indented => exact ⟨[' '], by simp [IsSpace, isJsonSpace], rfl⟩

/-- What follows the opening bracket of items at a level, the text behind the closing one included. -/
def Style.inside (style : Style) (level : Nat) (closing : Char) (ts : List (List Char)) (rest : List Char) :
    List Char :=
  style.separated (level + 1) ts ++ (style.lineBreak level ++ closing :: rest)

theorem bracketed_append (style : Style) (level : Nat) (opening closing : Char) {ts : List (List Char)} (h : ts ≠ [])
    (rest : List Char) :
    style.bracketed level opening closing ts ++ rest = opening :: style.inside level closing ts rest := by
  rw [Style.bracketed, if_neg (by simpa using h)]
  simp [Style.inside]

/-- What follows the first of several items, of which `ts` are the others. -/
def Style.behind (style : Style) (level : Nat) (closing : Char) (ts : List (List Char)) (rest : List Char) :
    List Char :=
  if ts.isEmpty then style.lineBreak level ++ closing :: rest else ',' :: style.inside level closing ts rest

theorem inside_cons (style : Style) (level : Nat) (closing : Char) (t : List Char) (ts : List (List Char))
    (rest : List Char) :
    style.inside level closing (t :: ts) rest =
      style.lineBreak (level + 1) ++ (t ++ style.behind level closing ts rest) := by
  cases ts with
  | nil => simp [Style.inside, Style.behind, Style.separated]
  | cons u ts => simp [Style.inside, Style.behind, Style.separated]

theorem ends_behind (style : Style) (level : Nat) {closing : Char} (h : goesOn closing = false) (ts : List (List Char))
    (rest : List Char) : Ends (style.behind level closing ts rest) := by
  unfold Style.behind
  split
  · cases style with
    | compact => exact ends_cons h rest
    | indented => exact ends_cons (by decide) _
  · exact ends_cons (by decide) _

theorem skipSpace_behind_nil (style : Style) (level : Nat) {closing : Char} (h : isJsonSpace closing = false)
    (rest : List Char) : skipSpace (style.behind level closing [] rest) = closing :: rest :=
  skipSpace_append (isSpace_lineBreak style level) h rest

theorem behind_of_ne_nil (style : Style) (level : Nat) (closing : Char) {ts : List (List Char)} (h : ts ≠ [])
    (rest : List Char) : style.behind level closing ts rest = ',' :: style.inside level closing ts rest :=
  if_neg (by simpa using h)

/-- The characters that start a value. -/
def startsValue (c : Char) : Bool := isAsciiDigit c || c ∈ ['-', '"', '[', '{', 'n', 't', 'f']

theorem ne_of_startsValue {c d : Char} (hc : startsValue c = true) (hd : startsValue d = false) : c ≠ d := by
  rintro rfl
  rw [hd] at hc
  exact absurd hc (by decide)

theorem isJsonSpace_of_startsValue {c : Char} (h : startsValue c = true) : isJsonSpace c = false := by
  have h₁ : c ≠ ' ' := ne_of_startsValue h (by decide)
  have h₂ : c ≠ '\t' := ne_of_startsValue h (by decide)
  have h₃ : c ≠ '\n' := ne_of_startsValue h (by decide)
  have h₄ : c ≠ '\r' := ne_of_startsValue h (by decide)
  simp [isJsonSpace, h₁, h₂, h₃, h₄]

theorem intDigits_eq_cons (n : Int) : ∃ c cs, intDigits n = c :: cs ∧ (isAsciiDigit c = true ∨ c = '-') := by
  obtain ⟨c, ds, hds, hc⟩ := toDigits_eq_cons n.natAbs
  by_cases hneg : n < 0
  · exact ⟨'-', c :: ds, by simp [intDigits, hneg, hds], .inr rfl⟩
  · exact ⟨c, ds, by simp [intDigits, hneg, hds], .inl hc⟩

theorem bracketed_eq_cons (style : Style) (level : Nat) (opening closing : Char) (ts : List (List Char)) :
    ∃ cs, style.bracketed level opening closing ts = opening :: cs := by
  unfold Style.bracketed
  split
  · exact ⟨_, rfl⟩
  · exact ⟨_, rfl⟩

theorem render_eq_cons (style : Style) (level : Nat) {v : Value} (h : v.all Value.isExact = true) :
    ∃ c cs, render style level v = c :: cs ∧ startsValue c = true := by
  cases v with
  | null => exact ⟨'n', _, by rw [render]; rfl, by decide⟩
  | bool b =>
    cases b with
    | true => exact ⟨'t', _, by rw [render]; rfl, by decide⟩
    | false => exact ⟨'f', _, by rw [render]; rfl, by decide⟩
  | int n =>
    obtain ⟨c, cs, hcs, hc⟩ := intDigits_eq_cons n
    refine ⟨c, cs, by rw [render, hcs], ?_⟩
    rcases hc with hc | rfl
    · simp [startsValue, hc]
    · decide
  | float d => simp [Value.all, Value.isExact] at h
  | string s => exact ⟨'"', _, by rw [render]; rfl, by decide⟩
  | array vs =>
    obtain ⟨cs, hcs⟩ := bracketed_eq_cons style level '[' ']' (renderItems style (level + 1) vs)
    exact ⟨'[', cs, by rw [render, hcs], by decide⟩
  | object ms =>
    obtain ⟨cs, hcs⟩ := bracketed_eq_cons style level '{' '}' (renderMembers style (level + 1) ms)
    exact ⟨'{', cs, by rw [render, hcs], by decide⟩

theorem skipSpace_render {w : List Char} (hw : IsSpace w) (style : Style) (level : Nat) {v : Value}
    (h : v.all Value.isExact = true) (rest : List Char) :
    skipSpace (w ++ (render style level v ++ rest)) = render style level v ++ rest := by
  obtain ⟨c, cs, hcs, hc⟩ := render_eq_cons style level h
  rw [hcs, List.cons_append]
  exact skipSpace_append hw (isJsonSpace_of_startsValue hc) _

/-! ## One step -/

theorem value_of_literal {fuel : Nat} {c : Char} {cs : List Char} {p : Value × List Char}
    (hc : c ≠ '"' ∧ c ≠ '{' ∧ c ≠ '[') (h : literal? (c :: cs) = some p) :
    value .strict (fuel + 1) (c :: cs) = .ok p := by
  have hstart : ∀ x, (c :: cs).head? = some x → x ∉ ['"', '{', '['] := by
    intro x hx
    obtain rfl := Option.some.inj hx
    simpa using hc
  rw [value_of_start hstart, h]

theorem value_of_numeral {fuel : Nat} {c : Char} (hc : isAsciiDigit c = true ∨ c = '-') (cs : List Char) :
    value .strict (fuel + 1) (c :: cs) = number .strict (c :: cs) := by
  have hne : ∀ d, isAsciiDigit d = false → d ≠ '-' → d ≠ c := by
    rintro d hd hminus rfl
    rcases hc with hc | rfl
    · rw [hd] at hc
      cases hc
    · exact hminus rfl
  -- no word starts with a digit or a sign
  have hliteral : literal? (c :: cs) = none := by
    have hnull : word? "null".toList (c :: cs) = none := word?_eq_none rfl (hne _ (by decide) (by decide)) cs
    have htrue : word? "true".toList (c :: cs) = none := word?_eq_none rfl (hne _ (by decide) (by decide)) cs
    have hfalse : word? "false".toList (c :: cs) = none := word?_eq_none rfl (hne _ (by decide) (by decide)) cs
    rw [literal?, hnull, htrue, hfalse]
  have hstart : ∀ x, (c :: cs).head? = some x → x ∉ ['"', '{', '['] := by
    intro x hx
    obtain rfl := Option.some.inj hx
    have hquote := hne '"' (by decide) (by decide)
    have hbrace := hne '{' (by decide) (by decide)
    have hbracket := hne '[' (by decide) (by decide)
    simp [hquote.symm, hbrace.symm, hbracket.symm]
  rw [value_of_start hstart, hliteral]

theorem toOption_map {ε α β : Type} (f : α → β) (x : Except ε α) : (x.map f).toOption = x.toOption.map f := by
  cases x <;> rfl

/-- The first item, and the others if a comma comes behind it. -/
theorem items_toOption (fuel : Nat) (cs : List Char) :
    (items .strict (fuel + 1) cs).toOption =
      (value .strict fuel cs).toOption.bind fun p =>
        match skipSpace p.2 with
        | ']' :: r => some ([p.1], r)
        | ',' :: r => (items .strict fuel (skipSpace r)).toOption.map fun q => (p.1 :: q.1, q.2)
        | _ => none := by
  conv => lhs; unfold items
  cases value .strict fuel cs with
  | error e => rfl
  | ok p =>
    have hok : (Except.ok p : Except Fault (Value × List Char)).toOption = some p := rfl
    rw [hok, Option.bind_some]
    dsimp only
    generalize skipSpace p.2 = behind
    split
    · rfl
    · exact toOption_map _ _
    · simp [Except.toOption]

/-- The first member, whose name is quoted, and the others if a comma comes behind it. -/
theorem members_toOption (fuel : Nat) (style : Style) (name : String) {cs : List Char}
    (hcs : ∀ w, IsSpace w → skipSpace (w ++ cs) = cs) :
    (members .strict (fuel + 1) (quoteString name ++ (style.colon ++ cs))).toOption =
      (value .strict fuel cs).toOption.bind fun p =>
        match skipSpace p.2 with
        | '}' :: r => some ([(CodePoints.ofString name, p.1)], r)
        | ',' :: r =>
          (members .strict fuel (skipSpace r)).toOption.map fun q => ((CodePoints.ofString name, p.1) :: q.1, q.2)
        | _ => none := by
  obtain ⟨w, hw, hcolon⟩ := colon_eq style
  have hbehind : skipSpace (style.colon ++ cs) = ':' :: (w ++ cs) := by
    rw [hcolon]
    exact skipSpace_cons (by decide) _
  rw [quoteString_append]
  conv => lhs; unfold members
  simp only [stringBody_escaped, hbehind, hcs w hw]
  cases value .strict fuel cs with
  | error e => rfl
  | ok p =>
    have hok : (Except.ok p : Except Fault (Value × List Char)).toOption = some p := rfl
    rw [hok, Option.bind_some]
    dsimp only
    generalize skipSpace p.2 = behind
    split
    · rfl
    · exact toOption_map _ _
    · simp [Except.toOption]

theorem objectOf_ofString (ms : List (String × Value)) :
    objectOf .strict (ms.map fun m => (CodePoints.ofString m.1, m.2)) = .object ms := by
  simp [objectOf, Function.comp_def]

theorem value_array_nil (fuel : Nat) (rest : List Char) :
    value .strict (fuel + 1) ('[' :: ']' :: rest) = .ok (.array [], rest) := by
  have hskip : skipSpace (']' :: rest) = ']' :: rest := skipSpace_cons (by decide) rest
  unfold value
  simp only [hskip]

theorem value_object_nil (fuel : Nat) (rest : List Char) :
    value .strict (fuel + 1) ('{' :: '}' :: rest) = .ok (.object [], rest) := by
  have hskip : skipSpace ('}' :: rest) = '}' :: rest := skipSpace_cons (by decide) rest
  unfold value
  simp only [hskip]

/-! ## Values -/

theorem length_render_pos (style : Style) (level : Nat) {v : Value} (h : v.all Value.isExact = true) :
    0 < (render style level v).length := by
  obtain ⟨c, cs, hcs, -⟩ := render_eq_cons style level h
  rw [hcs, List.length_cons]
  exact Nat.succ_pos _

theorem renderItems_ne_nil (style : Style) (level : Nat) (v : Value) (vs : List Value) :
    renderItems style level (v :: vs) ≠ [] := by
  rw [renderItems]
  exact List.cons_ne_nil _ _

theorem renderMembers_ne_nil (style : Style) (level : Nat) (m : String × Value) (ms : List (String × Value)) :
    renderMembers style level (m :: ms) ≠ [] := by
  rw [renderMembers]
  exact List.cons_ne_nil _ _

/-- Items do not start with a closing bracket. -/
theorem head?_skipSpace_items (style : Style) (level : Nat) {v : Value} {vs : List Value}
    (h : Value.allItems Value.isExact (v :: vs) = true) (rest : List Char) :
    (skipSpace (style.inside level ']' (renderItems style (level + 1) (v :: vs)) rest)).head? ≠ some ']' := by
  rw [Value.allItems, Bool.and_eq_true] at h
  obtain ⟨c, cs, hcs, hc⟩ := render_eq_cons style (level + 1) h.1
  rw [renderItems, inside_cons, skipSpace_render (isSpace_lineBreak _ _) style (level + 1) h.1, hcs]
  intro hhead
  exact ne_of_startsValue hc (by decide) (Option.some.inj hhead)

theorem skipSpace_quoteString {w : List Char} (hw : IsSpace w) (name : String) (rest : List Char) :
    skipSpace (w ++ (quoteString name ++ rest)) = quoteString name ++ rest := by
  rw [quoteString_append]
  exact skipSpace_append hw (by decide) _

/-- Members do not start with a closing brace. -/
theorem head?_skipSpace_members (style : Style) (level : Nat) (m : String × Value) (ms : List (String × Value))
    (rest : List Char) :
    (skipSpace (style.inside level '}' (renderMembers style (level + 1) (m :: ms)) rest)).head? ≠ some '}' := by
  rw [renderMembers, inside_cons, List.append_assoc, List.append_assoc, skipSpace_quoteString (isSpace_lineBreak _ _),
    quoteString_append]
  exact fun hhead => absurd (Option.some.inj hhead) (by decide)

theorem value_null (fuel : Nat) (rest : List Char) :
    value .strict (fuel + 1) ("null".toList ++ rest) = .ok (.null, rest) :=
  value_of_literal (c := 'n') (by decide) (literal?_null rest)

theorem value_bool (fuel : Nat) (b : Bool) (rest : List Char) :
    value .strict (fuel + 1) ((if b then "true" else "false").toList ++ rest) = .ok (.bool b, rest) := by
  cases b with
  | true => exact value_of_literal (c := 't') (by decide) (literal?_bool true rest)
  | false => exact value_of_literal (c := 'f') (by decide) (literal?_bool false rest)

theorem value_intDigits (fuel : Nat) (n : Int) {rest : List Char} (h : Ends rest) :
    (value .strict (fuel + 1) (intDigits n ++ rest)).toOption = if isWritable n then some (.int n, rest) else none := by
  have hnumber := number_intDigits n h
  obtain ⟨c, cs, hcs, hc⟩ := intDigits_eq_cons n
  rw [hcs, List.cons_append] at hnumber ⊢
  rw [value_of_numeral hc, hnumber]

mutual

/-- **A value is read back**, unless it has an integer of too many digits. Fuel of twice the length of the text is
    enough; items and members need one more, since they ask for a value before they take a character. -/
theorem value_render (style : Style) (level : Nat) : (v : Value) → v.all Value.isExact = true →
    ∀ (fuel : Nat) (rest : List Char), Ends rest → 2 * (render style level v ++ rest).length ≤ fuel + 1 →
      (value .strict (fuel + 1) (render style level v ++ rest)).toOption =
        if v.all Value.isShort then some (v, rest) else none
  | .null, _, fuel, rest, _, _ => by
    rw [render, value_null]
    rfl
  | .bool b, _, fuel, rest, _, _ => by
    rw [render, value_bool]
    rfl
  | .int n, _, fuel, rest, hrest, _ => by
    rw [render, value_intDigits fuel n hrest, Value.all, Value.isShort]
  | .float d, hexact, _, _, _, _ => by simp [Value.all, Value.isExact] at hexact
  | .string s, _, fuel, rest, _, _ => by
    rw [render, value_quoteString]
    rfl
  | .array [], _, fuel, rest, _, _ => by
    rw [render]
    exact congrArg Except.toOption (value_array_nil fuel rest)
  | .array (v :: vs), hexact, fuel, rest, _, hfuel => by
    have hitems := items_render style level (v :: vs) (by simp) hexact
    have hlayout := bracketed_append style level '[' ']' (renderItems_ne_nil style (level + 1) v vs) rest
    rw [render, hlayout, List.length_cons] at hfuel
    -- the bracket pays for this call and for the one that looks for items
    obtain ⟨fuel, rfl⟩ : ∃ k, fuel = k + 1 := ⟨fuel - 1, by omega⟩
    rw [render, hlayout, value_array (head?_skipSpace_items style level hexact rest), toOption_map,
      hitems fuel rest (by omega), Value.all]
    split
    · rfl
    · rfl
  | .object [], _, fuel, rest, _, _ => by
    rw [render]
    exact congrArg Except.toOption (value_object_nil fuel rest)
  | .object (m :: ms), hexact, fuel, rest, _, hfuel => by
    have hmembers := members_render style level (m :: ms) (by simp) hexact
    have hlayout := bracketed_append style level '{' '}' (renderMembers_ne_nil style (level + 1) m ms) rest
    rw [render, hlayout, List.length_cons] at hfuel
    obtain ⟨fuel, rfl⟩ : ∃ k, fuel = k + 1 := ⟨fuel - 1, by omega⟩
    rw [render, hlayout, value_object (head?_skipSpace_members style level m ms rest), toOption_map,
      hmembers fuel rest (by omega), Value.all]
    split
    · exact congrArg (fun v => some (v, rest)) (objectOf_ofString (m :: ms))
    · rfl

/-- Items are read back up to the closing bracket. -/
theorem items_render (style : Style) (level : Nat) : (vs : List Value) → vs ≠ [] →
    Value.allItems Value.isExact vs = true → ∀ (fuel : Nat) (rest : List Char),
      2 * (style.inside level ']' (renderItems style (level + 1) vs) rest).length ≤ fuel →
      (items .strict (fuel + 1) (skipSpace (style.inside level ']' (renderItems style (level + 1) vs) rest))).toOption =
        if Value.allItems Value.isShort vs then some (vs, rest) else none
  | [], hne, _, _, _, _ => absurd rfl hne
  | v :: vs, _, hexact, fuel, rest, hfuel => by
    rw [Value.allItems, Bool.and_eq_true] at hexact
    have hitems := fun hne => items_render style level vs hne hexact.2
    rw [renderItems, inside_cons, List.length_append, List.length_append] at hfuel
    have hpos := length_render_pos style (level + 1) hexact.1
    obtain ⟨fuel, rfl⟩ : ∃ k, fuel = k + 1 := ⟨fuel - 1, by omega⟩
    -- a comma, a line break or the bracket comes behind the item, and none of them goes on with a number
    have hends : Ends (style.behind level ']' (renderItems style (level + 1) vs) rest) :=
      ends_behind style level (by decide) _ rest
    have hvalue := value_render style (level + 1) v hexact.1 fuel _ hends (by rw [List.length_append]; omega)
    rw [renderItems, inside_cons, skipSpace_render (isSpace_lineBreak _ _) style (level + 1) hexact.1, items_toOption,
      hvalue, Value.allItems]
    cases v.all Value.isShort with
    | false => rfl
    | true =>
      -- with the first item read, the rest depends on whether there are others
      rw [if_pos rfl, Option.bind_some, Bool.true_and]
      cases vs with
      | nil =>
        rw [renderItems, skipSpace_behind_nil style level (by decide)]
        rfl
      | cons w ws =>
        have hbehind := behind_of_ne_nil style level ']' (renderItems_ne_nil style (level + 1) w ws) rest
        rw [hbehind, List.length_cons] at hfuel
        rw [hbehind, skipSpace_cons (by decide)]
        show (items .strict (fuel + 1) (skipSpace _)).toOption.map (fun q => (v :: q.1, q.2)) = _
        rw [hitems (by simp) fuel rest (by omega)]
        split
        · rfl
        · rfl

/-- Members are read back up to the closing brace. -/
theorem members_render (style : Style) (level : Nat) : (ms : List (String × Value)) → ms ≠ [] →
    Value.allMembers Value.isExact ms = true → ∀ (fuel : Nat) (rest : List Char),
      2 * (style.inside level '}' (renderMembers style (level + 1) ms) rest).length ≤ fuel →
      (members .strict (fuel + 1)
          (skipSpace (style.inside level '}' (renderMembers style (level + 1) ms) rest))).toOption =
        if Value.allMembers Value.isShort ms then some (ms.map fun m => (CodePoints.ofString m.1, m.2), rest) else none
  | [], hne, _, _, _, _ => absurd rfl hne
  | (name, v) :: ms, _, hexact, fuel, rest, hfuel => by
    rw [Value.allMembers, Bool.and_eq_true] at hexact
    have hmembers := fun hne => members_render style level ms hne hexact.2
    rw [renderMembers, inside_cons, List.length_append, List.length_append, List.length_append] at hfuel
    have hpos := length_render_pos style (level + 1) hexact.1
    obtain ⟨fuel, rfl⟩ : ∃ k, fuel = k + 1 := ⟨fuel - 1, by omega⟩
    have hends : Ends (style.behind level '}' (renderMembers style (level + 1) ms) rest) :=
      ends_behind style level (by decide) _ rest
    have hvalue := value_render style (level + 1) v hexact.1 fuel _ hends (by rw [List.length_append]; omega)
    rw [renderMembers, inside_cons, List.append_assoc, List.append_assoc, skipSpace_quoteString (isSpace_lineBreak _ _),
      members_toOption (fuel + 1) style name fun w hw => skipSpace_render hw style (level + 1) hexact.1 _, hvalue,
      Value.allMembers]
    cases v.all Value.isShort with
    | false => rfl
    | true =>
      rw [if_pos rfl, Option.bind_some, Bool.true_and]
      cases ms with
      | nil =>
        rw [renderMembers, skipSpace_behind_nil style level (by decide)]
        rfl
      | cons m ms =>
        have hbehind := behind_of_ne_nil style level '}' (renderMembers_ne_nil style (level + 1) m ms) rest
        rw [hbehind, List.length_cons] at hfuel
        rw [hbehind, skipSpace_cons (by decide)]
        show (members .strict (fuel + 1) (skipSpace _)).toOption.map
          (fun q => ((CodePoints.ofString name, v) :: q.1, q.2)) = _
        rw [hmembers (by simp) fuel rest (by omega)]
        split
        · rfl
        · rfl

end

/-! ## Texts -/

/-- The text of a value is read to its end as that value, unless it has an integer of too many digits. -/
theorem value_text (style : Style) {v : Value} (h : v.all Value.isExact = true) :
    (value .strict (2 * (v.text style).toList.length + 2) (skipSpace (v.text style).toList)).toOption =
      if v.all Value.isShort = true then some (v, []) else none := by
  have hnil : IsSpace [] := by simp [IsSpace]
  have hskip : skipSpace (render style 0 v) = render style 0 v := by
    have := skipSpace_render hnil style 0 h []
    rwa [List.nil_append, List.append_nil] at this
  have hvalue := value_render style 0 v h (2 * (render style 0 v).length + 1) [] ends_nil
    (by rw [List.append_nil]; omega)
  rw [Value.text, String.toList_ofList, hskip]
  rwa [List.append_nil] at hvalue

/-- No value starts with a byte order mark. -/
theorem text_ne_byteOrderMark (style : Style) {v : Value} (h : v.all Value.isExact = true) (cs : List Char) :
    (v.text style).toList ≠ '\ufeff' :: cs := by
  obtain ⟨c, rest, hrender, hc⟩ := render_eq_cons style 0 h
  rw [Value.text, String.toList_ofList, hrender]
  exact fun heq => ne_of_startsValue hc (by decide) (List.cons.inj heq).1

/-- **The text of a value is read as that value**, unless it has an integer of too many digits or is nested too
    deeply. -/
theorem parse_text (style : Style) {v : Value} (h : v.all Value.isExact = true) :
    (parse .strict (v.text style).toList).toOption =
      if v.all Value.isShort = true ∧ v.nesting ≤ maxNesting then some v else none := by
  have hvalue := value_text style h
  unfold parse
  split
  · next cs heq => exact absurd heq (text_ne_byteOrderMark style h cs)
  · split
    · next e he =>
      rw [he] at hvalue
      split at hvalue
      · cases hvalue
      · next hlong => rw [if_neg fun h => hlong h.1]; rfl
    · next w r hr =>
      rw [hr] at hvalue
      split at hvalue
      · next hshort =>
        cases hvalue
        -- all is read, and it may still be nested too deeply
        show (if Dialect.strict = .strict ∧ maxNesting < v.nesting then Except.error _ else Except.ok v).toOption = _
        by_cases hdeep : maxNesting < v.nesting
        · rw [if_pos ⟨rfl, hdeep⟩, if_neg fun h => absurd h.2 (by omega)]
          rfl
        · rw [if_neg fun h => hdeep h.2, if_pos ⟨hshort, by omega⟩]
          rfl
      · cases hvalue

theorem parse_text_of_isShort (style : Style) {v : Value} (hexact : v.all Value.isExact = true)
    (hshort : v.all Value.isShort = true) (hdeep : v.nesting ≤ maxNesting) :
    parse .strict (v.text style).toList = .ok v := by
  have htext := parse_text style hexact
  rw [if_pos ⟨hshort, hdeep⟩] at htext
  cases hparse : parse .strict (v.text style).toList with
  | error e =>
    rw [hparse] at htext
    cases htext
  | ok w =>
    rw [hparse] at htext
    cases htext
    rfl

end Stencil.Json
