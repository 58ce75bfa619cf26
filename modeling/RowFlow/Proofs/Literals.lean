import Mathlib.Data.List.Infix
import RowFlow.Service.Registration

/-!
# Literal templates

A template in which no placeholder can begin is text throughout, so it is rendered to itself,
whatever the variables are (`Template.render_literal`).
-/

namespace RowFlow

namespace Template

/-- The scan for two braces in a row finds them wherever they stand. -/
theorem hasOpening_iff (cs : List Char) : hasOpening cs ↔ ['{', '{'] <:+: cs := by
  induction cs with
  | nil => simp [hasOpening]
  | cons c cs ih =>
    rw [hasOpening, Bool.or_eq_true, ih, List.infix_cons_iff]
    refine or_congr ?_ Iff.rfl
    cases cs with
    | nil => simp [opening?]
    | cons d cs =>
      rw [opening?, List.cons_prefix_cons, List.cons_prefix_cons]
      by_cases hopening : c = '{' ∧ d = '{'
      · simp [hopening]
      · rw [if_neg hopening]
        exact ⟨nofun, fun ⟨hc, hd, _⟩ => (hopening ⟨hc.symm, hd.symm⟩).elim⟩

theorem placeholder?_of_not_hasOpening (h : hasOpening cs = false) : placeholder? cs = none := by
  cases cs with
  | nil => rfl
  | cons c cs =>
    rw [hasOpening, Bool.or_eq_false_iff] at h
    have hopening : opening? (c :: cs) = none := by simpa using h.1
    rw [placeholder?, hopening]
    rfl

theorem pieces_of_none (h : placeholder? (c :: cs) = none) :
    pieces (c :: cs) = .char c :: pieces cs := by
  rw [pieces]
  split
  · rename_i hfound
    cases h.symm.trans hfound
  · rfl

theorem pieces_of_some (h : placeholder? cs = some (expression, rest)) :
    pieces cs = .placeholder expression :: pieces rest := by
  cases cs with
  | nil => cases h
  | cons c cs =>
    rw [pieces]
    split
    · rename_i hfound
      cases h.symm.trans hfound
      rfl
    · rename_i hnone
      cases h.symm.trans hnone

/-- A text without opening braces is cut into its characters. -/
theorem pieces_literal (h : hasOpening cs = false) : pieces cs = cs.map .char := by
  induction cs with
  | nil => rw [pieces, List.map_nil]
  | cons c cs ih =>
    have hrest : hasOpening cs = false := by
      rw [hasOpening, Bool.or_eq_false_iff] at h
      exact h.2
    rw [pieces_of_none (placeholder?_of_not_hasOpening h), ih hrest, List.map_cons]

theorem renderPieces_chars (vars : Row) (cs : List Char) :
    renderPieces vars (cs.map .char) = .ok cs := by
  induction cs with
  | nil => rfl
  | cons c cs ih =>
    rw [List.map_cons, renderPieces, ih]
    rfl

/-- A text without opening braces is rendered as it stands, whatever the variables are. -/
theorem render_literal {template : String} (h : isLiteral template) (vars : Row) :
    render template vars = .ok template := by
  have hopening : hasOpening template.toList = false := by simpa [isLiteral] using h
  rw [render, pieces_literal hopening, renderPieces_chars]
  exact congrArg Except.ok (String.ofList_toList)

end Template

/-- A name is literal if and only if no two opening braces follow each other in it. -/
theorem isLiteral_iff (name : String) :
    isLiteral name ↔ ¬ ['{', '{'] <:+: name.toList := by
  rw [← Template.hasOpening_iff]
  simp [isLiteral]

end RowFlow
