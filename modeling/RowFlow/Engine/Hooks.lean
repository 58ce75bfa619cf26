import RowFlow.Engine.Transform

/-!
# Hooks

A hook runs its forms in a fixed order: the inline script, the component, the function.
-/

namespace RowFlow.Engine

variable {σ : Type}

def runInlineScript (engine : Engine σ) (key : String) (phase : Phase) (template : String) :
    Run σ EngineError Unit := do
  Run.begin (.hook key phase .inlineScript)
  let source ← Run.ofExcept ((← Run.context).render template)
  (Run.access (.loadScript source) (engine.scripts.load source)).mapError fun e =>
    .hook phase key (.script e)

def runRunnable (engine : Engine σ) (key : String) (phase : Phase) (template : String) :
    Run σ EngineError Unit := do
  Run.begin (.hook key phase .runnable)
  let name ← Run.ofExcept ((← Run.context).render template)
  let run ← Run.ofExcept (engine.findRunnable key name)
  (Run.call (.runnable name) run).mapError fun message => .hook phase key (.runnable name message)

def runScriptCall (engine : Engine σ) (key : String) (phase : Phase) (call : ScriptCall) :
    Run σ EngineError Unit := do
  Run.begin (.hook key phase .scriptCall)
  let _ ← (engine.invoke call.function call.args).mapError fun e => .hook phase key (.script e)

/-- Does what a form asks for, if it is given. -/
def whenGiven (form : Option α) (run : α → Run σ EngineError Unit) : Run σ EngineError Unit :=
  match form with
  | none => pure ()
  | some a => run a

def runHook (engine : Engine σ) (key : String) (phase : Phase) (hook : Option Hook) :
    Run σ EngineError Unit :=
  whenGiven hook fun hook => do
    whenGiven hook.inlineScript (engine.runInlineScript key phase)
    whenGiven hook.runnable (engine.runRunnable key phase)
    whenGiven hook.scriptCall (engine.runScriptCall key phase)

end RowFlow.Engine
