import RowFlow.Engine.Hooks
import RowFlow.Engine.Reading

/-!
# Running pipelines

A run takes the body of its pipeline through each of its parameter sets: the hook before, the flows
in order, the hook after. A flow that triggers another pipeline runs that pipeline's body inside,
in the same context. The first error ends the run.
-/

namespace RowFlow.Engine

variable {σ : Type}

/-- How deep the bodies of triggered pipelines may be nested inside the run's own. -/
def maxTriggerDepth : Nat := 16

/-- Announces a flow, runs it, and wraps its error with where it happened. -/
def runFlow (engine : Engine σ) (trigger : TriggerFlow → Run σ EngineError Unit) (key : String)
    (flow : Flow) : Run σ EngineError Unit := do
  let ctx ← Run.context
  let label := ctx.label flow.id
  Run.begin (.flow key flow)
  Run.emit (.flowStarted key label (ctx.label flow.desc))
  let run := match flow with
    | .trigger t => trigger t
    | .read r => engine.readFlow key label r
  run.mapError (.flow key label)

/-- The hook before, the flows in order, the hook after. -/
def runBody (engine : Engine σ) (trigger : TriggerFlow → Run σ EngineError Unit) (p : Pipeline) :
    Run σ EngineError Unit := do
  engine.runHook p.key .pre p.pre
  p.flows.forM (engine.runFlow trigger p.key)
  engine.runHook p.key .post p.post

def findPipeline (engine : Engine σ) (key : String) : Except EngineError Pipeline :=
  match engine.pipelines.find? key with
  | some p => .ok p
  | none => .error (.pipelineNotFound key)

/-- The parameter sets of a trigger; without any, the body runs once with a set of its own. -/
def triggerParams (t : TriggerFlow) : List Row :=
  match t.params with
  | some (row :: rows) => row :: rows
  | _ => [[("dummyKey", .text "dummyVal")]]

/-- Runs the pipeline of a trigger once for each of its parameter sets, which are merged into the
context, with so many levels of bodies left. -/
def runTrigger (engine : Engine σ) : Nat → TriggerFlow → Run σ EngineError Unit
  | 0, _ => Run.fail (.triggerDepth maxTriggerDepth)
  | levels + 1, t => do
    let p ← Run.ofExcept (engine.findPipeline t.pipelineKey)
    (triggerParams t).forM fun params => do
      Run.modifyContext (·.merge params)
      engine.runBody (engine.runTrigger levels) p

/-- The body of a run's own pipeline. -/
def runPipeline (engine : Engine σ) (p : Pipeline) : Run σ EngineError Unit :=
  engine.runBody (engine.runTrigger maxTriggerDepth) p

/-- The caller's parameter sets if there are any, else the provider's, else one that is empty. -/
def resolveParams (engine : Engine σ) (p : Pipeline) (given : Option (List Row)) :
    Run σ EngineError (List Row) :=
  match given, p.paramsProvider with
  | some (row :: rows), _ => return row :: rows
  | _, none => return [[]]
  | _, some call =>
    (engine.invokeForRows call.function (call.args ++ [.text p.key])).mapError .script

/-- The context in which a parameter set begins. The set can not replace the pipeline's key. -/
def initialContext (runId key : String) (params : Row) : Context :=
  ((Context.empty.set Context.runIdKey (.text runId)).merge params).set Context.pipelineKeyKey
    (.text key)

/-- Runs a pipeline with parameter sets that are counted from an index. -/
def runSets (engine : Engine σ) (runId : String) (p : Pipeline) :
    Nat → List Row → Run σ EngineError Unit
  | _, [] => return
  | index, params :: rest => do
    Run.modifyContext fun _ => initialContext runId p.key params
    Run.emit (.paramsStarted runId p.key index params)
    engine.runPipeline p
    engine.runSets runId p (index + 1) rest

def runAll (engine : Engine σ) (runId key : String) (given : Option (List Row)) :
    Run σ EngineError Unit := do
  let p ← Run.ofExcept (engine.findPipeline key)
  engine.runSets runId p 0 (← engine.resolveParams p given)

/-- Runs a pipeline under a run id and announces how it ends. -/
def run (engine : Engine σ) (runId key : String) (given : Option (List Row)) :
    Run σ EngineError Unit := do
  Run.emit (.runStarted runId key)
  match ← (engine.runAll runId key given).attempt with
  | .ok () => Run.emit (.runCompleted runId key)
  | .error e =>
    Run.emit (.runFailed runId key e.message)
    Run.fail e

end RowFlow.Engine
