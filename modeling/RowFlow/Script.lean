import RowFlow.Component
import RowFlow.Rows

/-!
# Scripts

Transformers, filters, hooks and parameter providers call functions by name. A script host knows
the functions and may load source text that defines more of them.
-/

namespace RowFlow

inductive ScriptError where
  | unknownFunction (name : String)
  | load (message : String)
  | invocation (function message : String)
  /-- The function's answer is not what its caller can use. -/
  | badReturn (function : String) (error : RowsError)
  | unsupported (message : String)

def ScriptError.message : ScriptError → String
  | .unknownFunction name => s!"unknown script function '{name}'"
  | .load message => s!"failed to load script: {message}"
  | .invocation function message => s!"script function '{function}' failed: {message}"
  | .badReturn function error =>
    s!"script function '{function}' returned an unexpected value: {error.message}"
  | .unsupported message => message

structure ScriptHost (σ : Type) where
  load : String → Access σ ScriptError Unit
  invoke : String → List Value → Access σ ScriptError Value

/-- A function answers a value or the text of an error. -/
abbrev ScriptFunction (σ : Type) := List Value → Access σ String Value

/-- Functions by name. -/
abbrev FunctionTable (σ : Type) := Dict (ScriptFunction σ)

namespace FunctionTable

variable {σ : Type}

/-- Calls the function of a name. -/
def invoke (functions : FunctionTable σ) (name : String) (args : List Value) :
    Access σ ScriptError Value :=
  match functions.find? name with
  | none => Access.fail (.unknownFunction name)
  | some function => (function args).mapError (.invocation name)

/-- Source text can not be loaded into a table. -/
def load (_source : String) : Access σ ScriptError Unit :=
  Access.fail (.unsupported "script source cannot be loaded into a function registry")

def toHost (functions : FunctionTable σ) : ScriptHost σ where
  load := load
  invoke := functions.invoke

end FunctionTable

end RowFlow
