import RowFlow.Template

/-!
# The variables of a template

A template names a variable wherever a placeholder has a path, which starts in that variable. Two
sets of variables that agree on the named ones give the same text or the same error.
-/

namespace RowFlow.Template

/-- The variable in which a path starts, unless it is no path. -/
def start? (path : String) : Option String :=
  match segments path.toList with
  | [] => none
  | [] :: _ => none
  | head :: _ => some (String.ofList head)

def Expression.named? : Expression → Option String
  | .value path => start? path
  | .json path => start? path
  | .malformed _ => none

def Piece.named? : Piece → Option String
  | .char _ => none
  | .placeholder expression => (Expression.ofChars expression).named?

/-- The variables that a template names. -/
def names (template : String) : List String := (pieces template.toList).filterMap Piece.named?

variable {vars vars' : Row}

/-- A path is looked up in the variable that its first part names. -/
theorem lookup_congr (h : ∀ name, start? path = some name → vars.find? name = vars'.find? name) :
    lookup path vars = lookup path vars' := by
  rcases hsegments : segments path.toList with _ | ⟨_ | ⟨c, cs⟩, rest⟩
  · simp only [lookup, hsegments]
  · simp only [lookup, hsegments]
  · have hhead := h (String.ofList (c :: cs)) (by simp only [start?, hsegments])
    simp only [lookup, hsegments, hhead]

theorem Expression.evaluate_congr {expression : Expression}
    (h : ∀ name, expression.named? = some name → vars.find? name = vars'.find? name) :
    expression.evaluate vars = expression.evaluate vars' := by
  cases expression with
  | value path => exact congrArg (Except.map rawText) (lookup_congr h)
  | json path => exact congrArg (Except.map Json.write) (lookup_congr h)
  | malformed => rfl

theorem Piece.render_congr {piece : Piece}
    (h : ∀ name, piece.named? = some name → vars.find? name = vars'.find? name) :
    piece.render vars = piece.render vars' := by
  cases piece with
  | char => rfl
  | placeholder => exact Expression.evaluate_congr h

/-- Pieces without a placeholder do not look at the variables at all. -/
theorem renderPieces_congr {pieces : List Piece}
    (h : ∀ name ∈ pieces.filterMap Piece.named?, vars.find? name = vars'.find? name) :
    renderPieces vars pieces = renderPieces vars' pieces := by
  induction pieces with
  | nil => rfl
  | cons piece rest ih =>
    have hpiece : piece.render vars = piece.render vars' :=
      Piece.render_congr fun name hname =>
        h name (List.mem_filterMap.mpr ⟨piece, List.mem_cons_self, hname⟩)
    have hrest : renderPieces vars rest = renderPieces vars' rest := by
      refine ih fun name hname => h name ?_
      obtain ⟨other, hother, hnamed⟩ := List.mem_filterMap.mp hname
      exact List.mem_filterMap.mpr ⟨other, List.mem_cons_of_mem _ hother, hnamed⟩
    rw [renderPieces, renderPieces, hpiece, hrest]

theorem render_congr (h : ∀ name ∈ names template, vars.find? name = vars'.find? name) :
    render template vars = render template vars' :=
  congrArg (Except.map String.ofList) (renderPieces_congr h)

end RowFlow.Template
