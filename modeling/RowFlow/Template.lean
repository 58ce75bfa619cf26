import RowFlow.Json.Printer
import RowFlow.Text.Blank

/-!
# Templates

A template is text with placeholders `{{ expression }}`. An expression is a dotted path into the
variables, written raw when it leads to a text and as compact JSON otherwise, or `toJson(path)`,
which is always JSON. Values are put in once and are not scanned again.
-/

namespace RowFlow

inductive TemplateError where
  | unknownVariable (path : String)
  | malformed (expression : String)
deriving DecidableEq, Repr

def TemplateError.message : TemplateError → String
  | .unknownVariable path => s!"unknown variable '{path}'"
  | .malformed expression => s!"malformed expression '{expression}'"

namespace Template

/-- What a placeholder asks for. -/
inductive Expression where
  | value (path : String)
  | json (path : String)
  | malformed (text : String)
deriving DecidableEq, Repr

/-- A character of the text around the placeholders, or the text inside one. -/
inductive Piece where
  | char (c : Char)
  | placeholder (expression : List Char)
deriving DecidableEq, Repr

/-! ## The pieces of a template -/

/-- The rest after two opening braces. -/
def opening? : List Char → Option (List Char)
  | c :: d :: cs => if c = '{' ∧ d = '{' then some cs else none
  | _ => none

/-- Whether there are two opening braces anywhere. -/
def hasOpening : List Char → Bool
  | [] => false
  | c :: cs => (opening? (c :: cs)).isSome || hasOpening cs

/-- The rest after blanks and two closing braces. -/
def closing? (cs : List Char) : Option (List Char) :=
  match Text.trimStart cs with
  | c :: d :: rest => if c = '}' ∧ d = '}' then some rest else none
  | _ => none

/-- The shortest text without a line break that is followed by blanks and two closing braces, and
the rest after these. -/
def body? : List Char → Option (List Char × List Char)
  | [] => none
  | c :: cs =>
    match closing? (c :: cs) with
    | some rest => some ([], rest)
    | none =>
      if c = '\n' then none else (body? cs).map fun (expression, rest) => (c :: expression, rest)

/-- The expression of the placeholder at the start of a text, and the rest. -/
def placeholder? (cs : List Char) : Option (List Char × List Char) :=
  (opening? cs).bind fun cs => body? (Text.trimStart cs)

theorem length_trimStart_le (cs : List Char) : (Text.trimStart cs).length ≤ cs.length :=
  (List.dropWhile_sublist _).length_le

theorem length_of_opening? {cs rest : List Char} (h : opening? cs = some rest) :
    rest.length + 2 = cs.length := by
  unfold opening? at h
  split at h
  · split at h
    · cases h; rfl
    · cases h
  · cases h

theorem length_of_closing? {cs rest : List Char} (h : closing? cs = some rest) :
    rest.length + 2 ≤ cs.length := by
  have hle := length_trimStart_le cs
  unfold closing? at h
  split at h
  · next heq =>
    split at h
    · cases h
      rw [heq, List.length_cons, List.length_cons] at hle
      exact hle
    · cases h
  · cases h

theorem length_of_body? {cs expression rest : List Char} (h : body? cs = some (expression, rest)) :
    rest.length + 2 ≤ cs.length := by
  induction cs generalizing expression with
  | nil => simp [body?] at h
  | cons c cs ih =>
    rw [body?] at h
    split at h
    · next hc =>
      cases h
      exact length_of_closing? hc
    · split at h
      · cases h
      · obtain ⟨⟨e, r⟩, hb, heq⟩ := Option.map_eq_some_iff.1 h
        obtain ⟨rfl, rfl⟩ := Prod.mk.inj heq
        exact Nat.le_succ_of_le (ih hb)

/-- What follows a placeholder is shorter than the text that begins with it, so cutting a template
comes to an end. -/
theorem length_of_placeholder? {cs expression rest : List Char}
    (h : placeholder? cs = some (expression, rest)) : rest.length < cs.length := by
  obtain ⟨inner, ho, hb⟩ := Option.bind_eq_some_iff.1 h
  have := length_of_opening? ho
  have := length_of_body? hb
  have := length_trimStart_le inner
  omega

/-- The pieces of a template, from left to right; opening braces that start no placeholder are
text. -/
def pieces : List Char → List Piece
  | [] => []
  | c :: cs =>
    match _h : placeholder? (c :: cs) with
    | some (expression, rest) => .placeholder expression :: pieces rest
    | none => .char c :: pieces cs
termination_by cs => cs.length
decreasing_by
  · exact length_of_placeholder? _h
  · exact Nat.lt_succ_self cs.length

/-! ## Expressions -/

/-- The path inside `toJson(…)`. -/
def helperPath? (cs : List Char) : Option (List Char) :=
  match cs with
  | 't' :: 'o' :: 'J' :: 's' :: 'o' :: 'n' :: '(' :: rest =>
    if rest.getLast? = some ')' then
      let inner := rest.dropLast
      if inner.any (fun c => c = '(' || c = ')') then none else some (Text.trim inner)
    else none
  | _ => none

def Expression.ofChars (cs : List Char) : Expression :=
  if cs = [] then .malformed ""
  else match helperPath? cs with
    | some path => .json (String.ofList path)
    | none =>
      if cs.any (fun c => c = '(' || c = ' ') then .malformed (String.ofList cs)
      else .value (String.ofList cs)

/-- The segments of a dotted path; there is at least one. -/
def segments : List Char → List (List Char)
  | [] => [[]]
  | c :: cs =>
    if c = '.' then [] :: segments cs
    else match segments cs with
      | [] => [[c]]
      | s :: ss => (c :: s) :: ss

/-- The position that a segment names in a list: digits, perhaps after a plus. -/
def position? (segment : List Char) : Option Nat :=
  let digits := match segment with
    | '+' :: ds => ds
    | ds => ds
  if digits ≠ [] ∧ digits.all Json.isDigit then some (Json.natOfDigits digits) else none

/-- One step of a path into a value. -/
def child? (v : Value) (segment : List Char) : Option Value :=
  match v with
  | .object fields => Dict.find? fields (String.ofList segment)
  | .list items => (position? segment).bind fun i => items[i]?
  | _ => none

/-- The value at a path. -/
def lookup (path : String) (vars : Row) : Except TemplateError Value :=
  match segments path.toList with
  | [] => .error (.malformed path)
  | [] :: _ => .error (.malformed path)
  | head :: rest =>
    match (vars.find? (String.ofList head)).bind fun v => rest.foldlM child? v with
    | some v => .ok v
    | none => .error (.unknownVariable path)

/-- The text of a value in a placeholder that asks for the value itself. -/
def rawText : Value → List Char
  | .text s => s.toList
  | v => Json.write v

def Expression.evaluate (vars : Row) : Expression → Except TemplateError (List Char)
  | .value path => (lookup path vars).map rawText
  | .json path => (lookup path vars).map Json.write
  | .malformed text => .error (.malformed text)

/-! ## Rendering -/

def Piece.render (vars : Row) : Piece → Except TemplateError (List Char)
  | .char c => .ok [c]
  | .placeholder expression => (Expression.ofChars expression).evaluate vars

/-- The texts of the pieces joined, or the error of the leftmost piece that has none. -/
def renderPieces (vars : Row) : List Piece → Except TemplateError (List Char)
  | [] => .ok []
  | piece :: rest => do
    let text ← piece.render vars
    return text ++ (← renderPieces vars rest)

/-- The text of a template under the given variables. -/
def render (template : String) (vars : Row) : Except TemplateError String :=
  (renderPieces vars (pieces template.toList)).map String.ofList

end Template

end RowFlow
