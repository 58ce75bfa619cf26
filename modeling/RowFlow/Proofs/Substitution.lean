import RowFlow.Proofs.Literals

/-!
# Substitution in one pass

A template is text with placeholders between, and blanks around the expression of each (`Slot`). If
no placeholder can begin in the text, and none can end inside an expression, then the pieces of the
template are those that have been written (`Template.pieces_write`), and it is rendered by putting a
text in the place of every placeholder (`Template.render_substitutes`).
-/

namespace RowFlow.Template

/-- A placeholder as it is written: an expression with blanks around it, and the text from there up
to the next placeholder or the end. -/
structure Slot where
  lead : List Char
  expression : List Char
  trail : List Char
  literal : List Char

namespace Slot

def write (slot : Slot) : List Char :=
  '{' :: '{' ::
    (slot.lead ++ (slot.expression ++ (slot.trail ++ '}' :: '}' :: slot.literal)))

/-- The expression is told from the blanks around it, and it does not end before its end. -/
structure WellFormed (slot : Slot) : Prop where
  lead : ∀ c ∈ slot.lead, Text.isBlank c = true
  trail : ∀ c ∈ slot.trail, Text.isBlank c = true
  nonempty : slot.expression ≠ []
  unbroken : '\n' ∉ slot.expression
  unclosed : ¬ ['}', '}'] <:+: slot.expression
  trimmed : Text.Trimmed slot.expression
  unbraced : slot.expression.getLast? ≠ some '}'

end Slot

/-- A template: a text, and placeholders with a text after each. -/
def write (literal : List Char) (slots : List Slot) : List Char :=
  literal ++ slots.flatMap Slot.write

/-- A template with a text in the place of each placeholder. -/
def fill (literal : List Char) (slots : List Slot) (texts : List (List Char)) : List Char :=
  literal ++ (slots.zipWith (fun slot text => text ++ slot.literal) texts).flatten

/-- No placeholder begins in the texts of a template, nor with the end of one. -/
def Separated : List Char → List Slot → Prop
  | literal, [] => ¬ ['{', '{'] <:+: literal
  | literal, slot :: slots =>
    ¬ ['{', '{'] <:+: literal ∧ literal.getLast? ≠ some '{' ∧
      Separated slot.literal slots

/-! ## Where a placeholder ends -/

theorem not_isBlank_closing : Text.isBlank '}' = false := by
  unfold Text.isBlank
  decide

/-- Blanks may stand before the braces that close a placeholder. -/
theorem closing?_of_blanks (h : ∀ c ∈ blanks, Text.isBlank c = true) (rest : List Char) :
    closing? (blanks ++ '}' :: '}' :: rest) = some rest := by
  have hclosing : Text.trimStart ('}' :: '}' :: rest) = '}' :: '}' :: rest :=
    Text.trimStart_of_head (by simp [not_isBlank_closing])
  rw [closing?, Text.trimStart_append h, hclosing]
  simp

/-- Inside an expression there are no closing braces, not even after blanks. -/
theorem closing?_of_inside (hne : inside ≠ []) (hclosed : ¬ ['}', '}'] <:+: inside)
    (hblank : ∀ c ∈ inside.getLast?, Text.isBlank c = false)
    (hbrace : inside.getLast? ≠ some '}') (rest : List Char) :
    closing? (inside ++ rest) = none := by
  induction inside with
  | nil => contradiction
  | cons c cs ih =>
    cases hc : Text.isBlank c with
    | true =>
      -- an expression does not end with a blank
      obtain ⟨d, cs, rfl⟩ : ∃ d ds, cs = d :: ds := List.exists_cons_of_ne_nil fun hnil => by
        subst hnil
        cases hc.symm.trans (hblank c rfl)
      have hskip : closing? (c :: d :: cs ++ rest) = closing? (d :: cs ++ rest) := by
        rw [closing?, List.cons_append, Text.trimStart, List.dropWhile_cons_of_pos hc]
        rfl
      rw [hskip]
      exact ih (List.cons_ne_nil _ _) (fun h => hclosed (List.infix_cons h)) hblank hbrace
    | false =>
      have hstart : Text.trimStart (c :: cs ++ rest) = c :: cs ++ rest :=
        Text.trimStart_of_head (by simp [hc])
      rw [closing?, hstart]
      cases cs with
      | nil =>
        have hne : c ≠ '}' := fun heq => hbrace (congrArg some heq)
        cases rest <;> simp [hne]
      | cons d cs =>
        refine if_neg fun hbraces => hclosed ?_
        rw [hbraces.1, hbraces.2]
        exact ⟨[], cs, rfl⟩

/-- The expression ends where the first closing braces or the blanks before them begin. -/
theorem body?_of_inside (hclosed : ¬ ['}', '}'] <:+: inside) (hunbroken : '\n' ∉ inside)
    (hblank : ∀ c ∈ inside.getLast?, Text.isBlank c = false)
    (hbrace : inside.getLast? ≠ some '}') (htrail : ∀ c ∈ trail, Text.isBlank c = true)
    (rest : List Char) :
    body? (inside ++ (trail ++ '}' :: '}' :: rest)) = some (inside, rest) := by
  induction inside with
  | nil =>
    have hclosing := closing?_of_blanks htrail rest
    obtain ⟨c, cs, hcs⟩ : ∃ c cs, trail ++ '}' :: '}' :: rest = c :: cs :=
      List.exists_cons_of_ne_nil (by simp)
    rw [hcs] at hclosing
    rw [List.nil_append, hcs, body?, hclosing]
  | cons c cs ih =>
    have hclosing := closing?_of_inside (List.cons_ne_nil c cs) hclosed hblank hbrace
      (trail ++ '}' :: '}' :: rest)
    obtain ⟨hc, hcs⟩ := List.ne_and_not_mem_of_not_mem_cons hunbroken
    have hrest : body? (cs ++ (trail ++ '}' :: '}' :: rest)) = some (cs, rest) := by
      cases cs with
      | nil => exact ih (fun h => hclosed (List.infix_cons h)) hcs (by simp) (by simp)
      | cons => exact ih (fun h => hclosed (List.infix_cons h)) hcs hblank hbrace
    rw [List.cons_append] at hclosing ⊢
    rw [body?, hclosing, if_neg hc.symm, hrest]
    rfl

/-- A placeholder is found with its expression, and ends where it has been written to end. -/
theorem placeholder?_write {slot : Slot} (h : slot.WellFormed) (rest : List Char) :
    placeholder? (slot.write ++ rest) = some (slot.expression, slot.literal ++ rest) := by
  have hstart (tail : List Char) : Text.trimStart (slot.lead ++ (slot.expression ++ tail)) =
      slot.expression ++ tail := by
    obtain ⟨c, cs, hcs⟩ := List.exists_cons_of_ne_nil h.nonempty
    rw [Text.trimStart_append h.lead]
    refine Text.trimStart_of_head fun d hd => h.trimmed.head d ?_
    rw [hcs] at hd ⊢
    exact hd
  have hbody := body?_of_inside h.unclosed h.unbroken h.trimmed.last h.unbraced h.trail
    (slot.literal ++ rest)
  simp only [placeholder?, Slot.write, List.cons_append, List.append_assoc, opening?, and_self,
    if_true, Option.bind_some, hstart, hbody]

/-! ## The pieces of a template -/

theorem pieces_placeholder {slot : Slot} (h : slot.WellFormed) (rest : List Char) :
    pieces (slot.write ++ rest) =
      .placeholder slot.expression :: pieces (slot.literal ++ rest) :=
  pieces_of_some (placeholder?_write h rest)

/-- Text in which no placeholder begins is text, whatever begins after it. -/
theorem pieces_literal_append (hopen : ¬ ['{', '{'] <:+: literal)
    (hlast : literal.getLast? ≠ some '{') (rest : List Char) :
    pieces (literal ++ rest) = literal.map .char ++ pieces rest := by
  induction literal with
  | nil => rfl
  | cons c cs ih =>
    have hopening : opening? (c :: (cs ++ rest)) = none := by
      cases cs with
      | nil =>
        have hc : c ≠ '{' := fun heq => hlast (congrArg some heq)
        cases rest <;> simp [opening?, hc]
      | cons d cs =>
        refine if_neg fun hbraces => hopen ?_
        rw [hbraces.1, hbraces.2]
        exact ⟨[], cs, rfl⟩
    have hrest : pieces (cs ++ rest) = cs.map .char ++ pieces rest := by
      refine ih (fun h => hopen (List.infix_cons h)) ?_
      cases cs with
      | nil => simp
      | cons => exact hlast
    have hnone : placeholder? (c :: (cs ++ rest)) = none := by
      rw [placeholder?, hopening]
      rfl
    rw [List.cons_append, pieces_of_none hnone, hrest]
    rfl

/-- The pieces of a template as it is written. -/
def slotPieces (literal : List Char) (slots : List Slot) : List Piece :=
  literal.map .char ++
    slots.flatMap fun slot => .placeholder slot.expression :: slot.literal.map .char

theorem slotPieces_cons (literal : List Char) (slot : Slot) (slots : List Slot) :
    slotPieces literal (slot :: slots) =
      literal.map .char ++ .placeholder slot.expression :: slotPieces slot.literal slots := by
  simp [slotPieces]

/-- A template that is written from slots is cut into these slots again. -/
theorem pieces_write (h : Separated literal slots) (hslots : ∀ slot ∈ slots, slot.WellFormed) :
    pieces (write literal slots) = slotPieces literal slots := by
  induction slots generalizing literal with
  | nil =>
    rw [write, List.flatMap_nil, List.append_nil, slotPieces, List.flatMap_nil, List.append_nil]
    refine pieces_literal ?_
    rwa [← Bool.not_eq_true, hasOpening_iff]
  | cons slot slots ih =>
    obtain ⟨hslot, hslots⟩ := List.forall_mem_cons.mp hslots
    obtain ⟨hopen, hlast, hrest⟩ := h
    rw [write, List.flatMap_cons, pieces_literal_append hopen hlast, pieces_placeholder hslot]
    rw [slotPieces_cons, ← ih hrest hslots]
    rfl

/-! ## Rendering -/

/-- The text that is put in the place of an expression, or the error of the expression. -/
def valueOf (vars : Row) (expression : List Char) : Except TemplateError (List Char) :=
  (Expression.ofChars expression).evaluate vars

variable {vars : Row}

theorem renderPieces_literal_append (vars : Row) (literal : List Char) (rest : List Piece) :
    renderPieces vars (literal.map .char ++ rest) =
      (renderPieces vars rest).map (literal ++ ·) := by
  induction literal with
  | nil =>
    rw [List.map_nil, List.nil_append]
    cases renderPieces vars rest <;> rfl
  | cons c cs ih =>
    rw [List.map_cons, List.cons_append, renderPieces, ih]
    cases renderPieces vars rest <;> rfl

theorem renderPieces_placeholder_ok (h : valueOf vars expression = .ok text) (rest : List Piece) :
    renderPieces vars (.placeholder expression :: rest) =
      (renderPieces vars rest).map (text ++ ·) := by
  have hpiece : (Piece.placeholder expression).render vars = .ok text := h
  rw [renderPieces, hpiece]
  cases renderPieces vars rest <;> rfl

/-- The leftmost placeholder without a text is the one that is told. -/
theorem renderPieces_placeholder_error (h : valueOf vars expression = .error e)
    (rest : List Piece) : renderPieces vars (.placeholder expression :: rest) = .error e := by
  have hpiece : (Piece.placeholder expression).render vars = .error e := h
  rw [renderPieces, hpiece]
  rfl

theorem fill_cons (literal : List Char) (slot : Slot) (slots : List Slot) (text : List Char)
    (texts : List (List Char)) :
    fill literal (slot :: slots) (text :: texts) =
      literal ++ (text ++ fill slot.literal slots texts) := by
  simp [fill]

/-! ## What an expression stands for -/

/-- The expression asks for the JSON of the value at a path. -/
def AsksJson (path expression : List Char) : Prop :=
  ∃ lead trail,
    expression =
      't' :: 'o' :: 'J' :: 's' :: 'o' :: 'n' :: '(' :: (lead ++ (path ++ trail) ++ [')']) ∧
    (∀ c ∈ lead, Text.isBlank c = true) ∧ (∀ c ∈ trail, Text.isBlank c = true) ∧
    '(' ∉ path ∧ ')' ∉ path ∧ Text.Trimmed path

theorem not_isBlank_paren (h : c = '(' ∨ c = ')') : Text.isBlank c = false := by
  rcases h with rfl | rfl <;>
    · unfold Text.isBlank
      decide

/-- The helper is recognised if and only if the expression asks for JSON. -/
theorem helperPath?_eq_some_iff :
    helperPath? expression = some path ↔ AsksJson path expression := by
  constructor
  · intro h
    unfold helperPath? at h
    split at h
    · rename_i rest
      split at h
      · rename_i hlast
        simp only [Option.ite_none_left_eq_some, Option.some.injEq, Bool.not_eq_true,
          List.any_eq_false] at h
        obtain ⟨hparens, rfl⟩ := h
        obtain ⟨lead, trail, hinner, hlead, htrail, htrimmed⟩ := Text.exists_trim rest.dropLast
        have hpath : ∀ c, c ∈ Text.trim rest.dropLast → c ∈ rest.dropLast := fun c hc => by
          rw [hinner]
          exact List.mem_append_right _ (List.mem_append_left _ hc)
        refine ⟨lead, trail, ?_, hlead, htrail, fun hc => ?_, fun hc => ?_, htrimmed⟩
        · rw [← hinner, List.dropLast_append_getLast? _ hlast]
        · simpa using hparens _ (hpath _ hc)
        · simpa using hparens _ (hpath _ hc)
      · cases h
    · cases h
  · rintro ⟨lead, trail, rfl, hlead, htrail, hopen, hclose, htrimmed⟩
    have hparens : (lead ++ (path ++ trail)).any (fun c => c = '(' || c = ')') = false := by
      refine List.any_eq_false.mpr fun c hc hparen => ?_
      have hblank : Text.isBlank c = false := not_isBlank_paren (by simpa using hparen)
      rcases List.mem_append.mp hc with hc | hc
      · cases hblank.symm.trans (hlead c hc)
      · rcases List.mem_append.mp hc with hc | hc
        · rcases (by simpa using hparen : c = '(' ∨ c = ')') with rfl | rfl
          · exact hopen hc
          · exact hclose hc
        · cases hblank.symm.trans (htrail c hc)
    rw [helperPath?, List.getLast?_concat, if_pos rfl, List.dropLast_concat]
    exact (if_neg (ne_true_of_eq_false hparens)).trans
      (congrArg some (htrimmed.trim_append hlead htrail))

/-- The expression is a path itself. -/
def IsPath (expression : List Char) : Prop := '(' ∉ expression ∧ ' ' ∉ expression

/-- What is put in the place of an expression: the text that a path leads to or the JSON of another
value, always JSON if the expression asks for it; or the error that there is instead. -/
inductive Yields (vars : Row) : List Char → Except TemplateError (List Char) → Prop
  | text : IsPath e → lookup (String.ofList e) vars = .ok (.text s) → Yields vars e (.ok s.toList)
  | value : IsPath e → lookup (String.ofList e) vars = .ok v → (∀ s, v ≠ .text s) →
    Yields vars e (.ok (Json.write v))
  | json : AsksJson path e → lookup (String.ofList path) vars = .ok v →
    Yields vars e (.ok (Json.write v))
  | nowhere : IsPath e → lookup (String.ofList e) vars = .error fault → Yields vars e (.error fault)
  | noJson : AsksJson path e → lookup (String.ofList path) vars = .error fault →
    Yields vars e (.error fault)
  | malformed : ¬ IsPath e → (∀ path, ¬ AsksJson path e) →
    Yields vars e (.error (.malformed (String.ofList e)))

theorem AsksJson.not_isPath (h : AsksJson path e) : ¬ IsPath e := by
  obtain ⟨lead, trail, rfl, -⟩ := h
  exact fun hpath => hpath.1 (by simp)

theorem rawText_of_ne (h : ∀ s, v ≠ .text s) : rawText v = Json.write v := by
  cases v with
  | text s => exact (h s rfl).elim
  | _ => rfl

theorem ofChars_json (h : AsksJson path e) :
    Expression.ofChars e = .json (String.ofList path) := by
  have hne : e ≠ [] := by
    obtain ⟨lead, trail, rfl, -⟩ := h
    exact List.cons_ne_nil _ _
  rw [Expression.ofChars, if_neg hne, helperPath?_eq_some_iff.mpr h]

theorem helperPath?_eq_none (h : ∀ path, ¬ AsksJson path e) : helperPath? e = none :=
  Option.eq_none_iff_forall_ne_some.mpr fun path hpath => h path (helperPath?_eq_some_iff.mp hpath)

theorem ofChars_path (hne : e ≠ []) (h : IsPath e) :
    Expression.ofChars e = .value (String.ofList e) := by
  have hchars : e.any (fun c => c = '(' || c = ' ') = false := by
    refine List.any_eq_false.mpr fun c hc hparen => ?_
    rcases (by simpa using hparen : c = '(' ∨ c = ' ') with rfl | rfl
    · exact h.1 hc
    · exact h.2 hc
  rw [Expression.ofChars, if_neg hne, helperPath?_eq_none fun path hjson => hjson.not_isPath h,
    hchars]
  rfl

theorem ofChars_malformed (h : ¬ IsPath e) (hjson : ∀ path, ¬ AsksJson path e) :
    Expression.ofChars e = .malformed (String.ofList e) := by
  have hne : e ≠ [] := fun hnil => h (hnil ▸ ⟨List.not_mem_nil, List.not_mem_nil⟩)
  have hchars : e.any (fun c => c = '(' || c = ' ') = true := by
    by_contra hnone
    refine h ⟨fun hc => hnone ?_, fun hc => hnone ?_⟩
    · exact List.any_eq_true.mpr ⟨_, hc, rfl⟩
    · exact List.any_eq_true.mpr ⟨_, hc, rfl⟩
  rw [Expression.ofChars, if_neg hne, helperPath?_eq_none hjson, hchars]
  rfl

theorem valueOf_json (h : AsksJson path e) :
    valueOf vars e = (lookup (String.ofList path) vars).map Json.write := by
  rw [valueOf, ofChars_json h]
  rfl

theorem valueOf_path (hne : e ≠ []) (h : IsPath e) :
    valueOf vars e = (lookup (String.ofList e) vars).map rawText := by
  rw [valueOf, ofChars_path hne h]
  rfl

theorem valueOf_malformed (h : ¬ IsPath e) (hjson : ∀ path, ¬ AsksJson path e) :
    valueOf vars e = .error (.malformed (String.ofList e)) := by
  rw [valueOf, ofChars_malformed h hjson]
  rfl

/-- An expression stands for one answer only. -/
theorem Yields.valueOf_eq (hne : e ≠ []) (h : Yields vars e answer) : valueOf vars e = answer := by
  cases h with
  | text hpath hlookup | nowhere hpath hlookup =>
    rw [valueOf_path hne hpath, hlookup]
    rfl
  | value hpath hlookup hother =>
    rw [valueOf_path hne hpath, hlookup]
    exact congrArg Except.ok (rawText_of_ne hother)
  | json hjson hlookup | noJson hjson hlookup =>
    rw [valueOf_json hjson, hlookup]
    rfl
  | malformed hpath hjson => exact valueOf_malformed hpath hjson

/-- Every expression that is not empty stands for a text or an error. -/
theorem yields_valueOf (vars : Row) (hne : e ≠ []) : Yields vars e (valueOf vars e) := by
  by_cases hpath : IsPath e
  · rw [valueOf_path hne hpath]
    cases hlookup : lookup (String.ofList e) vars with
    | error fault => exact .nowhere hpath hlookup
    | ok v =>
      cases v with
      | text s => exact .text hpath hlookup
      | null | bool | number | list | object => exact .value hpath hlookup nofun
  by_cases hjson : ∃ path, AsksJson path e
  · obtain ⟨path, hjson⟩ := hjson
    rw [valueOf_json hjson]
    cases hlookup : lookup (String.ofList path) vars with
    | error fault => exact .noJson hjson hlookup
    | ok v => exact .json hjson hlookup
  · have hnone : ∀ path, ¬ AsksJson path e := not_exists.mp hjson
    rw [valueOf_malformed hpath hnone]
    exact .malformed hpath hnone

/-! ## Templates with a text or an error for every placeholder -/

theorem renderPieces_ok (hslots : ∀ slot ∈ slots, slot.WellFormed)
    (h : List.Forall₂ (fun slot text => Yields vars slot.expression (.ok text)) slots texts)
    (literal : List Char) :
    renderPieces vars (slotPieces literal slots) = .ok (fill literal slots texts) := by
  induction h generalizing literal with
  | nil =>
    rw [slotPieces, renderPieces_literal_append]
    rfl
  | cons hyields _ ih =>
    obtain ⟨hslot, hslots⟩ := List.forall_mem_cons.mp hslots
    rw [slotPieces_cons, renderPieces_literal_append,
      renderPieces_placeholder_ok (hyields.valueOf_eq hslot.nonempty), ih hslots, fill_cons]
    rfl

theorem renderPieces_error {before : List Slot}
    (hslots : ∀ other ∈ before ++ slot :: after, other.WellFormed)
    (hbefore : ∀ earlier ∈ before, ∃ text, Yields vars earlier.expression (.ok text))
    (h : Yields vars slot.expression (.error e)) (literal : List Char) :
    renderPieces vars (slotPieces literal (before ++ slot :: after)) = .error e := by
  induction before generalizing literal with
  | nil =>
    obtain ⟨hslot, -⟩ := List.forall_mem_cons.mp hslots
    rw [List.nil_append, slotPieces_cons, renderPieces_literal_append,
      renderPieces_placeholder_error (h.valueOf_eq hslot.nonempty)]
    rfl
  | cons first before ih =>
    obtain ⟨hfirst, hslots⟩ := List.forall_mem_cons.mp hslots
    obtain ⟨⟨text, htext⟩, hbefore⟩ := List.forall_mem_cons.mp hbefore
    rw [List.cons_append, slotPieces_cons, renderPieces_literal_append,
      renderPieces_placeholder_ok (htext.valueOf_eq hfirst.nonempty), ih hslots hbefore]
    rfl

/-- A template that is written from slots is rendered slot by slot. -/
theorem render_write (h : Separated literal slots) (hslots : ∀ slot ∈ slots, slot.WellFormed)
    (vars : Row) :
    render (String.ofList (write literal slots)) vars =
      (renderPieces vars (slotPieces literal slots)).map String.ofList := by
  rw [render, String.toList_ofList, pieces_write h hslots]

/-- **A template is rendered in one pass.** Every expression stands for one text or one error. With
texts for all of them the template is rendered to its own text with these in the places of the
placeholders, whatever they contain; otherwise rendering ends with the error of the leftmost
expression that has one. A template without placeholders is rendered to itself. -/
theorem render_substitutes (h : Separated literal slots) (hslots : ∀ slot ∈ slots, slot.WellFormed)
    (vars : Row) :
    (∀ slot ∈ slots, ∃ answer, Yields vars slot.expression answer ∧
      ∀ other, Yields vars slot.expression other → other = answer) ∧
    (∀ texts, List.Forall₂ (fun slot text => Yields vars slot.expression (.ok text)) slots texts →
      render (String.ofList (write literal slots)) vars =
        .ok (String.ofList (fill literal slots texts))) ∧
    ∀ before slot after e, slots = before ++ slot :: after →
      (∀ earlier ∈ before, ∃ text, Yields vars earlier.expression (.ok text)) →
      Yields vars slot.expression (.error e) →
      render (String.ofList (write literal slots)) vars = .error e := by
  refine ⟨fun slot hslot => ?_, fun texts htexts => ?_, ?_⟩
  · have hne := (hslots slot hslot).nonempty
    exact ⟨_, yields_valueOf vars hne, fun other hother => (hother.valueOf_eq hne).symm⟩
  · rw [render_write h hslots, renderPieces_ok hslots htexts]
    rfl
  · rintro before slot after e rfl hbefore herror
    rw [render_write h hslots, renderPieces_error hslots hbefore herror]
    rfl

/-- One text twice, raw and as JSON, among braces that belong to no placeholder. -/
def sampleSlots : List Slot :=
  [⟨[' '], ['x'], ['\n'], ['}', '}', ' ']⟩,
    ⟨[], ['t', 'o', 'J', 's', 'o', 'n', '(', 'x', ')'], [' '], ['{']⟩]

/-- The text looks like a placeholder itself. -/
def sampleVars : Row := [("x", .text "{{y}}")]

/-- The template `{ {{ x⏎}}}} {{toJson(x) }}{`, with a line feed at `⏎`, is rendered as
`{ {{y}}}} "{{y}}"{`, and no placeholder is looked for in that. -/
theorem render_substitutes_braces :
    Separated ['{', ' '] sampleSlots ∧ (∀ slot ∈ sampleSlots, slot.WellFormed) ∧
      render "\x7b \x7b\x7b x\n\x7d\x7d\x7d\x7d \x7b\x7btoJson(x) \x7d\x7d\x7b" sampleVars =
        .ok "\x7b \x7b\x7by\x7d\x7d\x7d\x7d \"\x7b\x7by\x7d\x7d\"\x7b" := by
  have hseparated : Separated ['{', ' '] sampleSlots := by
    simp only [Separated, sampleSlots]
    decide
  have hslots : ∀ slot ∈ sampleSlots, slot.WellFormed := by
    refine List.forall_mem_cons.mpr ⟨?_, List.forall_mem_singleton.mpr ?_⟩ <;>
    · constructor
      case lead | trail => exact List.all_eq_true.mp (by decide +kernel)
      case trimmed => exact .of_all (by decide +kernel) (by decide +kernel)
      all_goals decide
  have hlookup : lookup "x" sampleVars = .ok (.text "{{y}}") := by cbv
  obtain ⟨-, hrender, -⟩ := render_substitutes hseparated hslots sampleVars
  refine ⟨hseparated, hslots, hrender _ (.cons (.text ?_ hlookup) (.cons (.json ?_ hlookup) .nil))⟩
  · exact ⟨by decide, by decide⟩
  · exact ⟨[], [], rfl, List.forall_mem_nil _, List.forall_mem_nil _, by decide, by decide,
      .of_all (by decide +kernel) (by decide +kernel)⟩

end RowFlow.Template
