import RowFlow.Proofs.Substitution
import RowFlow.Proofs.Variables

/-!
# Where placeholders are

A placeholder is two opening braces, blanks, an expression on one line, blanks, and two closing
braces. Where a text can begin with one in several ways, the first blanks are as many as can be and
then the expression is as short as can be (`Taken`). From left to right, a template is cut at the
first place where a placeholder can begin, and again in the rest after it (`Cut`). Every template is
scanned in this way, however many braces are missing or too many (`pieces_eq_iff`), which tells the
variables that it names (`mem_names_iff`).
-/

namespace RowFlow.Template

/-- The text begins with a placeholder that has these parts, and the rest comes after it. -/
structure Placeholder (cs lead expression trail rest : List Char) : Prop where
  text : cs = '{' :: '{' :: (lead ++ (expression ++ (trail ++ '}' :: '}' :: rest)))
  blankBefore : ∀ c ∈ lead, Text.isBlank c = true
  blankAfter : ∀ c ∈ trail, Text.isBlank c = true
  unbroken : '\n' ∉ expression

/-- A placeholder can begin here. -/
def Begins (cs : List Char) : Prop :=
  ∃ lead expression trail rest, Placeholder cs lead expression trail rest

/-- The placeholder that is taken of all that can begin here: the one with the most blanks before
its expression, of these the one with the shortest expression, and then the most blanks after it. -/
def Taken (cs expression rest : List Char) : Prop :=
  ∃ lead trail, Placeholder cs lead expression trail rest ∧
    ∀ lead' expression' trail' rest', Placeholder cs lead' expression' trail' rest' →
      lead'.length ≤ lead.length ∧
        (lead'.length = lead.length → expression.length ≤ expression'.length ∧
          (expression'.length = expression.length → trail'.length ≤ trail.length))

/-- A template is cut into pieces from left to right: the placeholder that begins first is the
next one, and cutting goes on after it. -/
inductive Cut : List Char → List Piece → Prop
  | text : (∀ cs, cs <:+ literal → ¬ Begins cs) → Cut literal (literal.map .char)
  | placeholder : (∀ cs, cs <:+ literal → cs ≠ [] → ¬ Begins (cs ++ found)) →
    Taken found expression rest → Cut rest ps →
    Cut (literal ++ found) (literal.map .char ++ .placeholder expression :: ps)

/-! ## Where a placeholder ends -/

theorem closing?_eq_some_iff : closing? cs = some rest ↔
    ∃ blanks, cs = blanks ++ '}' :: '}' :: rest ∧ ∀ c ∈ blanks, Text.isBlank c = true := by
  constructor
  · intro h
    obtain ⟨blanks, hcs, hblank⟩ := Text.exists_trimStart cs
    refine ⟨blanks, ?_, hblank⟩
    unfold closing? at h
    split at h
    · rename_i hstart
      split at h
      · rename_i hbraces
        cases h
        rw [hstart, hbraces.1, hbraces.2] at hcs
        exact hcs
      · cases h
    · cases h
  · rintro ⟨blanks, rfl, hblank⟩
    exact closing?_of_blanks hblank rest

/-- What is found is an expression on one line with the end of a placeholder after it. -/
theorem body?_eq_some (h : body? cs = some (expression, rest)) :
    '\n' ∉ expression ∧ ∃ tail, cs = expression ++ tail ∧ closing? tail = some rest := by
  induction cs generalizing expression with
  | nil => simp [body?] at h
  | cons c cs ih =>
    rw [body?] at h
    split at h
    · rename_i hclosing
      cases h
      exact ⟨List.not_mem_nil, _, rfl, hclosing⟩
    · split at h
      · cases h
      · rename_i hc
        obtain ⟨⟨e, r⟩, hbody, heq⟩ := Option.map_eq_some_iff.mp h
        obtain ⟨rfl, rfl⟩ := Prod.mk.inj heq
        obtain ⟨hunbroken, tail, rfl, hclosing⟩ := ih hbody
        exact ⟨List.not_mem_cons_of_ne_of_not_mem (Ne.symm hc) hunbroken, tail, rfl, hclosing⟩

/-- Nothing longer is found than there is. -/
theorem exists_body? (hunbroken : '\n' ∉ expression) (hclosing : closing? tail = some rest) :
    ∃ shortest rest', body? (expression ++ tail) = some (shortest, rest') ∧
      shortest.length ≤ expression.length := by
  induction expression with
  | nil =>
    cases tail with
    | nil => simp [closing?, Text.trimStart] at hclosing
    | cons c cs => exact ⟨[], rest, by rw [List.nil_append, body?, hclosing], Nat.le_refl 0⟩
  | cons c cs ih =>
    obtain ⟨hc, hcs⟩ := List.ne_and_not_mem_of_not_mem_cons hunbroken
    obtain ⟨shortest, rest', hbody, hle⟩ := ih hcs
    rw [List.cons_append, body?]
    cases closing? (c :: (cs ++ tail)) with
    | some early => exact ⟨[], early, rfl, Nat.zero_le _⟩
    | none =>
      refine ⟨c :: shortest, rest', ?_, Nat.succ_le_succ hle⟩
      rw [if_neg (Ne.symm hc), hbody]
      rfl

/-! ## Which placeholder is taken -/

theorem opening?_eq_some_iff : opening? cs = some rest ↔ cs = '{' :: '{' :: rest := by
  unfold opening?
  split
  · rename_i c d cs
    rw [Option.ite_none_right_eq_some]
    constructor
    · rintro ⟨⟨rfl, rfl⟩, hrest⟩
      cases hrest
      rfl
    · intro h
      cases h
      exact ⟨⟨rfl, rfl⟩, rfl⟩
  · rename_i hshort
    exact ⟨nofun, fun h => (hshort _ _ _ h).elim⟩

/-- Blanks at the start of a text are no more than all that there are. -/
theorem length_le_of_blanks (hblank : ∀ c ∈ blanks, Text.isBlank c = true)
    (h : blanks ++ cs = lead ++ Text.trimStart (blanks ++ cs)) : blanks.length ≤ lead.length := by
  have hlength := congrArg List.length h
  have hle := length_trimStart_le cs
  rw [Text.trimStart_append hblank, List.length_append, List.length_append] at hlength
  omega

theorem taken_of_placeholder? (h : placeholder? cs = some (expression, rest)) :
    Taken cs expression rest := by
  obtain ⟨inner, hopening, hbody⟩ := Option.bind_eq_some_iff.mp h
  obtain ⟨lead, hinner, hlead⟩ := Text.exists_trimStart inner
  obtain ⟨hunbroken, tail, htail, hclosing⟩ := body?_eq_some hbody
  obtain ⟨trail, rfl, htrail⟩ := closing?_eq_some_iff.mp hclosing
  have hcs := opening?_eq_some_iff.mp hopening
  refine ⟨lead, trail, ⟨?_, hlead, htrail, hunbroken⟩, ?_⟩
  · rw [hcs, ← htail, ← hinner]
  · intro lead' expression' trail' rest' hother
    have hinner' : inner = lead' ++ (expression' ++ (trail' ++ '}' :: '}' :: rest')) := by
      have htext := hcs.symm.trans hother.text
      simpa using htext
    subst hinner'
    refine ⟨length_le_of_blanks hother.blankBefore hinner, fun hlength => ?_⟩
    obtain ⟨rfl, hstart⟩ := List.append_inj hinner hlength
    rw [← hstart] at hbody htail
    have hclosing' := closing?_of_blanks hother.blankAfter rest'
    obtain ⟨shortest, _, hshortest, hle⟩ := exists_body? hother.unbroken hclosing'
    cases hbody.symm.trans hshortest
    refine ⟨hle, fun heq => ?_⟩
    obtain ⟨rfl, htails⟩ := List.append_inj htail heq
    rw [htails, hclosing] at hclosing'
    cases hclosing'
    rw [List.append_cancel_right htails]

/-- An expression on one line is found although blanks stand around it. -/
theorem exists_body?_of_blanks (hlead : ∀ c ∈ lead, Text.isBlank c = true)
    (htrail : ∀ c ∈ trail, Text.isBlank c = true) (hunbroken : '\n' ∉ expression)
    (rest : List Char) : ∃ expression' rest', body? (Text.trimStart
      (lead ++ (expression ++ (trail ++ '}' :: '}' :: rest)))) =
        some (expression', rest') := by
  obtain ⟨blanks, hexpression, hblank⟩ := Text.exists_trimStart expression
  -- what is left of the expression without the blanks at its start is followed by the same end
  have hstart : Text.trimStart (lead ++ (expression ++ (trail ++ '}' :: '}' :: rest))) =
      Text.trimStart (Text.trimStart expression ++ (trail ++ '}' :: '}' :: rest)) := by
    rw [Text.trimStart_append hlead]
    conv_lhs => rw [hexpression, List.append_assoc, Text.trimStart_append hblank]
  rw [hstart]
  cases hshort : Text.trimStart expression with
  | nil =>
    have hend : closing? ('}' :: '}' :: rest) = some rest :=
      closing?_of_blanks (List.forall_mem_nil _) rest
    rw [List.nil_append, Text.trimStart_append htrail,
      Text.trimStart_of_head (by simp [not_isBlank_closing])]
    exact ⟨[], rest, by rw [body?, hend]⟩
  | cons c others =>
    have hothers : '\n' ∉ c :: others := fun hmem => hunbroken <| by
      rw [hexpression, hshort]
      exact List.mem_append_right _ hmem
    have hfirst : Text.isBlank c = false :=
      Text.head?_trimStart expression (by rw [hshort]; rfl)
    rw [Text.trimStart_of_head (by simp [hfirst])]
    obtain ⟨e, r, hbody, -⟩ := exists_body? hothers (closing?_of_blanks htrail rest)
    exact ⟨e, r, hbody⟩

theorem Placeholder.exists_placeholder? (h : Placeholder cs lead expression trail rest) :
    ∃ expression' rest', placeholder? cs = some (expression', rest') := by
  have hopening := opening?_eq_some_iff.mpr h.text
  obtain ⟨e, r, hbody⟩ := exists_body?_of_blanks h.blankBefore h.blankAfter h.unbroken rest
  exact ⟨e, r, by rw [placeholder?, hopening, Option.bind_some, hbody]⟩

theorem Taken.unique (h : Taken cs expression rest) (h' : Taken cs expression' rest') :
    expression = expression' ∧ rest = rest' := by
  obtain ⟨lead, trail, hparts, hbest⟩ := h
  obtain ⟨lead', trail', hparts', hbest'⟩ := h'
  obtain ⟨hlead, hshort⟩ := hbest _ _ _ _ hparts'
  obtain ⟨hlead', hshort'⟩ := hbest' _ _ _ _ hparts
  have hleads := Nat.le_antisymm hlead' hlead
  have hexpressions := Nat.le_antisymm (hshort hleads.symm).1 (hshort' hleads).1
  have htext : lead ++ (expression ++ (trail ++ '}' :: '}' :: rest)) =
      lead' ++ (expression' ++ (trail' ++ '}' :: '}' :: rest')) := by
    simpa using hparts.text.symm.trans hparts'.text
  obtain ⟨-, hbodies⟩ := List.append_inj htext hleads
  obtain ⟨heq, htails⟩ := List.append_inj hbodies hexpressions
  have hclosing := closing?_of_blanks hparts.blankAfter rest
  rw [htails, closing?_of_blanks hparts'.blankAfter rest'] at hclosing
  exact ⟨heq, (Option.some.inj hclosing).symm⟩

theorem placeholder?_eq_some_iff :
    placeholder? cs = some (expression, rest) ↔ Taken cs expression rest := by
  refine ⟨taken_of_placeholder?, fun h => ?_⟩
  obtain ⟨lead, trail, hparts, -⟩ := id h
  obtain ⟨expression', rest', hfound⟩ := hparts.exists_placeholder?
  obtain ⟨rfl, rfl⟩ := h.unique (taken_of_placeholder? hfound)
  exact hfound

theorem placeholder?_eq_none_iff : placeholder? cs = none ↔ ¬ Begins cs := by
  constructor
  · rintro hnone ⟨lead, expression, trail, rest, hparts⟩
    obtain ⟨expression', rest', hfound⟩ := hparts.exists_placeholder?
    cases hnone.symm.trans hfound
  · intro h
    refine Option.eq_none_iff_forall_ne_some.mpr fun ⟨expression, rest⟩ hfound => h ?_
    obtain ⟨lead, trail, hparts, -⟩ := taken_of_placeholder? hfound
    exact ⟨lead, expression, trail, rest, hparts⟩

/-! ## The cuts of a template -/

/-- A character that begins no placeholder is a piece of its own. -/
theorem Cut.cons (hc : ¬ Begins (c :: cs)) (h : Cut cs ps) : Cut (c :: cs) (.char c :: ps) := by
  cases h with
  | text hnone =>
    refine @Cut.text (c :: cs) fun suffix hsuffix => ?_
    rcases List.suffix_cons_iff.mp hsuffix with rfl | hsuffix
    · exact hc
    · exact hnone suffix hsuffix
  | @placeholder literal found _ _ _ hnone htaken hrest =>
    have hlater : ∀ suffix, suffix <:+ c :: literal → suffix ≠ [] → ¬ Begins (suffix ++ found) := by
      intro suffix hsuffix hne
      rcases List.suffix_cons_iff.mp hsuffix with rfl | hsuffix
      · exact hc
      · exact hnone suffix hsuffix hne
    exact .placeholder hlater htaken hrest

theorem cut_pieces (cs : List Char) : Cut cs (pieces cs) := by
  fun_induction pieces cs with
  | case1 =>
    refine @Cut.text [] fun suffix hsuffix ⟨lead, expression, trail, rest, hparts⟩ => ?_
    rw [List.suffix_nil.mp hsuffix] at hparts
    cases hparts.text
  | case2 c cs expression rest hfound ih =>
    have hfirst : ∀ suffix : List Char, suffix <:+ [] → suffix ≠ [] →
        ¬ Begins (suffix ++ c :: cs) :=
      fun suffix hsuffix hne => (hne (List.suffix_nil.mp hsuffix)).elim
    exact .placeholder hfirst (taken_of_placeholder? hfound) ih
  | case3 c cs hnone ih => exact ih.cons (placeholder?_eq_none_iff.mp hnone)

theorem Cut.pieces_eq (h : Cut cs ps) : pieces cs = ps := by
  induction h with
  | @text literal hnone =>
    induction literal with
    | nil => rw [pieces, List.map_nil]
    | cons c cs ih =>
      have hfirst := placeholder?_eq_none_iff.mpr (hnone _ List.suffix_rfl)
      rw [pieces_of_none hfirst, List.map_cons,
        ih fun suffix hsuffix => hnone suffix (hsuffix.trans (List.suffix_cons c cs))]
  | @placeholder literal _ _ _ _ hnone htaken _ ihrest =>
    induction literal with
    | nil =>
      rw [List.nil_append, pieces_of_some (placeholder?_eq_some_iff.mpr htaken), ihrest]
      rfl
    | cons c cs ih =>
      have hfirst := placeholder?_eq_none_iff.mpr
        (hnone _ List.suffix_rfl (List.cons_ne_nil c cs))
      rw [List.cons_append] at hfirst ⊢
      rw [pieces_of_none hfirst, List.map_cons, List.cons_append,
        ih fun suffix hsuffix => hnone suffix (hsuffix.trans (List.suffix_cons c cs))]

/-- Scanning cuts a template, and there is one way only to cut it. -/
theorem pieces_eq_iff : pieces cs = ps ↔ Cut cs ps :=
  ⟨fun h => h ▸ cut_pieces cs, Cut.pieces_eq⟩

/-! ## The variables that are named -/

/-- The path of an expression, which is the expression itself or stands inside `toJson(…)`. -/
inductive HasPath (expression : List Char) : List Char → Prop
  | value : IsPath expression → HasPath expression expression
  | json : AsksJson path expression → HasPath expression path

/-- The path starts in the variable of this name: it is the first of the segments between dots. -/
def StartsIn (path : List Char) (name : String) : Prop :=
  name ≠ "" ∧ path.takeWhile (· ≠ '.') = name.toList

/-- The path of a placeholder of the template starts in the variable of this name. -/
def Names (template name : String) : Prop :=
  ∃ ps expression path, Cut template.toList ps ∧ .placeholder expression ∈ ps ∧
    HasPath expression path ∧ StartsIn path name

theorem exists_segments (cs : List Char) :
    ∃ others, segments cs = cs.takeWhile (· ≠ '.') :: others := by
  induction cs with
  | nil => exact ⟨[], rfl⟩
  | cons c cs ih =>
    obtain ⟨others, hothers⟩ := ih
    by_cases hc : c = '.'
    · exact ⟨segments cs, by simp [segments, hc]⟩
    · exact ⟨others, by simp [segments, hc, hothers]⟩

theorem start?_eq_some_iff : start? path = some name ↔ StartsIn path.toList name := by
  obtain ⟨others, hsegments⟩ := exists_segments path.toList
  unfold start? StartsIn
  rw [hsegments]
  cases path.toList.takeWhile (· ≠ '.') with
  | nil =>
    constructor
    · intro h
      cases h
    · rintro ⟨hne, hnil⟩
      exact (hne (String.toList_eq_nil_iff.mp hnil.symm)).elim
  | cons c cs =>
    constructor
    · intro h
      cases h
      exact ⟨by simp [← String.toList_inj], String.toList_ofList.symm⟩
    · rintro ⟨-, hname⟩
      exact congrArg some (by rw [hname, String.ofList_toList])

theorem HasPath.named?_eq (h : HasPath expression path) (hstarts : StartsIn path name) :
    (Expression.ofChars expression).named? = some name := by
  have hstart : start? (String.ofList path) = some name := by
    rw [start?_eq_some_iff, String.toList_ofList]
    exact hstarts
  cases h with
  | value hpath =>
    have hne : expression ≠ [] := by
      rintro rfl
      exact hstarts.1 (String.toList_eq_nil_iff.mp hstarts.2.symm)
    rw [ofChars_path hne hpath]
    exact hstart
  | json hjson =>
    rw [ofChars_json hjson]
    exact hstart

theorem exists_hasPath (h : (Expression.ofChars expression).named? = some name) :
    ∃ path, HasPath expression path ∧ StartsIn path name := by
  by_cases hpath : IsPath expression
  · have hne : expression ≠ [] := by
      rintro rfl
      cases h
    rw [ofChars_path hne hpath, Expression.named?, start?_eq_some_iff, String.toList_ofList] at h
    exact ⟨expression, .value hpath, h⟩
  by_cases hjson : ∃ path, AsksJson path expression
  · obtain ⟨path, hjson⟩ := hjson
    rw [ofChars_json hjson, Expression.named?, start?_eq_some_iff, String.toList_ofList] at h
    exact ⟨path, .json hjson, h⟩
  · rw [ofChars_malformed hpath (not_exists.mp hjson)] at h
    cases h

theorem mem_names_iff : name ∈ names template ↔ Names template name := by
  constructor
  · intro h
    obtain ⟨piece, hpiece, hnamed⟩ := List.mem_filterMap.mp h
    cases piece with
    | char => cases hnamed
    | placeholder expression =>
      obtain ⟨path, hpath, hstarts⟩ := exists_hasPath hnamed
      exact ⟨_, expression, path, cut_pieces _, hpiece, hpath, hstarts⟩
  · rintro ⟨ps, expression, path, hcut, hmem, hpath, hstarts⟩
    rw [← hcut.pieces_eq] at hmem
    exact List.mem_filterMap.mpr ⟨_, hmem, hpath.named?_eq hstarts⟩

end RowFlow.Template
