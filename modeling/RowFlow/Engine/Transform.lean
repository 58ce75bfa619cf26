import RowFlow.Engine.Basic

/-!
# Transforming rows

The variables of the context are put into every row, then the rows are transformed one by one or
all in one step, and at last a filter function may answer other rows.
-/

namespace RowFlow

/-- A row with the variables of a context, which win over the fields of the row. -/
def Row.overlay (row : Row) (ctx : Context) : Row := Dict.insertAll row ctx.bindings

/-- A row with the fields of its transformed form, which win. -/
def Row.merge (row transformed : Row) : Row := Dict.insertAll row transformed

namespace Engine

variable {σ : Type}

def invoke (engine : Engine σ) (function : String) (args : List Value) : Run σ ScriptError Value :=
  Run.access (.function function args) (engine.scripts.invoke function args)

/-- Calls a function that has to answer a list of rows. -/
def invokeForRows (engine : Engine σ) (function : String) (args : List Value) :
    Run σ ScriptError (List Row) := do
  let answer ← engine.invoke function args
  Run.ofExcept ((rowsOfValue answer).mapError (.badReturn function))

/-- The data that a template produces from variables. -/
def renderValue (template : String) (vars : Row) : Except EngineError Value :=
  match Template.render template vars with
  | .error e => .error (.template e)
  | .ok text =>
    match Json.read? text with
    | some v => .ok v
    | none => .error (.transform .notJson)

/-- The row that a template produces from a row. -/
def renderRow (template : String) (row : Row) : Except EngineError Row :=
  (renderValue template row).bind fun
    | .object fields => .ok fields
    | v => .error (.transform (.notAnObject v))

/-- The row that a function answers; with null it drops the row. -/
def rowAnswer (function : String) : Value → Except EngineError (Option Row)
  | .object fields => .ok (some fields)
  | .null => .ok none
  | v => .error (.script (.badReturn function (.notARow v)))

/-- A row in its transformed form, or none if it is dropped. A template goes before a function. -/
def transformRow (engine : Engine σ) (spec : TransformerSpec) (row : Row) :
    Run σ EngineError (Option Row) := do
  match spec.template, spec.function with
  | some template, _ => return some (← Run.ofExcept (renderRow template row))
  | none, some function =>
    let answer ← (engine.invoke function [.object row]).mapError .script
    Run.ofExcept (rowAnswer function answer)
  | none, none => return some row

/-- Transforms rows one by one. Merging keeps those fields of a row that its transformed form does
not have. -/
def transformEach (engine : Engine σ) (spec : TransformerSpec) (merging : Bool) :
    List Row → Run σ EngineError (List Row)
  | [] => return []
  | row :: rows => do
    match ← engine.transformRow spec row with
    | none => engine.transformEach spec merging rows
    | some transformed =>
      let result := if merging then row.merge transformed else transformed
      return result :: (← engine.transformEach spec merging rows)

/-- Transforms the list of all rows in one step. Nothing is merged. -/
def transformAll (engine : Engine σ) (spec : TransformerSpec) (rows : List Row) :
    Run σ EngineError (List Row) := do
  match spec.template, spec.function with
  | some template, _ =>
    let v ← Run.ofExcept (renderValue template [("list", .ofRows rows)])
    Run.ofExcept ((rowsOfValue v).mapError fun e => .transform (.rows e))
  | none, some function => (engine.invokeForRows function [.ofRows rows]).mapError .script
  | none, none => return rows

def applyTransformer (engine : Engine σ) (spec : ReaderSpec) (rows : List Row) :
    Run σ EngineError (List Row) :=
  match spec.transformer with
  | none => return rows
  | some transformer =>
    if transformer.allAtOnce then engine.transformAll transformer rows
    else engine.transformEach transformer (transformer.mergeToOriginal || spec.mergeToOriginal) rows

def applyFilter (engine : Engine σ) (spec : ReaderSpec) (rows : List Row) :
    Run σ EngineError (List Row) :=
  match spec.filter with
  | none => return rows
  | some function => (engine.invokeForRows function [.ofRows rows]).mapError .script

/-- The rows that a flow goes on with after reading. -/
def transform (engine : Engine σ) (spec : ReaderSpec) (rows : List Row) :
    Run σ EngineError (List Row) := do
  let ctx ← Run.context
  let rows ← engine.applyTransformer spec (rows.map (·.overlay ctx))
  engine.applyFilter spec rows

end Engine

end RowFlow
