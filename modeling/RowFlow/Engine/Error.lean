import RowFlow.Script
import RowFlow.Template

/-!
# Why a run fails

An error inside a flow is wrapped with the pipeline and the flow it happened in, once for each
flow that was running, so that the outermost wrapper names a flow of the run's own pipeline.
-/

namespace RowFlow

/-- Why a transformer's template gives no rows. -/
inductive TransformError where
  | notJson
  | notAnObject (v : Value)
  | rows (error : RowsError)

/-- The text of an error. The words `invalid JSON` stand for what a parser tells of the cause. -/
def TransformError.message : TransformError → String
  | .notJson => "template did not produce JSON: invalid JSON"
  | .notAnObject v => s!"template produced {Json.print v} instead of an object"
  | .rows error => error.message

/-- When a hook runs: before or after the flows. -/
inductive Phase where
  | pre
  | post
deriving DecidableEq, Repr

def Phase.name : Phase → String
  | .pre => "pre"
  | .post => "post"

inductive HookError where
  | script (error : ScriptError)
  | runnable (name message : String)

def HookError.message : HookError → String
  | .script error => error.message
  | .runnable name message => s!"runnable '{name}' failed: {message}"

inductive EngineError where
  | pipelineNotFound (key : String)
  | componentNotFound (name : String)
  | componentKind (name expected actual : String)
  | unsupportedAction (writer : String) (action : WriteAction)
  | instruction (component : String) (error : ReadError)
  | template (error : TemplateError)
  | script (error : ScriptError)
  | reader (name : String) (error : AdapterError)
  | transform (error : TransformError)
  | hook (phase : Phase) (pipeline : String) (error : HookError)
  | deadLetter (writer : String) (error : AdapterError)
  | triggerDepth (levels : Nat)
  | flow (pipeline name : String) (error : EngineError)
  /-- A component panicked. -/
  | interrupted (message : String)

namespace EngineError

def message : EngineError → String
  | .pipelineNotFound key => s!"pipeline '{key}' is not registered"
  | .componentNotFound name => s!"component '{name}' is not registered"
  | .componentKind name expected actual =>
    s!"component '{name}' is a {actual}, expected a {expected}"
  | .unsupportedAction writer action =>
    s!"writer '{writer}' is append-only and cannot {action.name}"
  | .instruction component error => s!"invalid instruction for '{component}': {error.message}"
  | .template error => error.message
  | .script error => error.message
  | .reader name error => s!"reader '{name}' failed: {error.message}"
  | .transform error => s!"transform failed: {error.message}"
  | .hook phase pipeline error =>
    s!"hook failed: {phase.name} hook of '{pipeline}': {error.message}"
  | .deadLetter writer error => s!"dead-letter writer '{writer}' failed: {error.message}"
  | .triggerDepth levels => s!"pipeline triggers nest deeper than {levels} levels"
  | .flow pipeline name error => s!"pipeline '{pipeline}', flow '{name}': {error.message}"
  | .interrupted message => s!"run did not finish: {message}"

/-- The error without the flows around it. -/
def root : EngineError → EngineError
  | .flow _ _ error => error.root
  | error => error

/-- The pipelines and flows around an error, from the outermost to the innermost. -/
def flows : EngineError → List (String × String)
  | .flow pipeline name error => (pipeline, name) :: error.flows
  | _ => []

end EngineError

end RowFlow
