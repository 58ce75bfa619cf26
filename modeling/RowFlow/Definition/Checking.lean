import RowFlow.Definition.Printing
import RowFlow.Definition.Reading
import RowFlow.Text.Blank

/-!
# Valid definitions

A flow either reads or triggers, reads batches of at least one row, and triggers a pipeline with a
key that is not blank. A definition whose flows are all valid is a pipeline.
-/

namespace RowFlow

/-- Why a definition is refused. -/
inductive DefinitionError where
  | io (path detail : String)
  | yaml (error : ReadError)
  | emptyFlow (index : Nat) (id : String)
  | ambiguousFlow (index : Nat) (id : String)
  | zeroBatchSize (index : Nat) (id : String)
  | emptyTriggerKey (index : Nat) (id : String)
  | unknownFactory (name factory : String)
  | componentBuild (name message : String)
  | script (path message : String)
  | unsupportedAction (flow writer : String) (action : WriteAction)
  | schedule (name message : String)
deriving DecidableEq

def DefinitionError.message : DefinitionError → String
  | .io path detail => s!"failed to read {path}: {detail}"
  | .yaml error => s!"invalid YAML: {error.message}"
  | .emptyFlow index id =>
    s!"flow #{index} ('{id}') declares neither a reader nor a pipeline trigger"
  | .ambiguousFlow index id =>
    s!"flow #{index} ('{id}') declares both a reader and a pipeline trigger"
  | .zeroBatchSize index id => s!"flow #{index} ('{id}') uses BATCHED mode with a batch size of 0"
  | .emptyTriggerKey index id => s!"flow #{index} ('{id}') triggers a pipeline with an empty key"
  | .unknownFactory name factory => s!"component '{name}' uses unknown factory '{factory}'"
  | .componentBuild name message => s!"component '{name}' could not be built: {message}"
  | .script path message => s!"failed to load script {path}: {message}"
  | .unsupportedAction flow writer action =>
    s!"flow '{flow}': writer '{writer}' is append-only and cannot {action.name}"
  | .schedule name message => s!"schedule '{name}' was rejected: {message}"

namespace FlowConfig

/-- Refuses a flow's definition that is not valid, given its position. -/
def check (index : Nat) (f : FlowConfig) : Except DefinitionError Unit :=
  match f.reader, f.trigger with
  | none, none => .error (.emptyFlow index f.id)
  | some _, some _ => .error (.ambiguousFlow index f.id)
  | some reader, none =>
    if reader.mode = .batched ∧ reader.batchSize = 0 then .error (.zeroBatchSize index f.id)
    else .ok ()
  | none, some trigger =>
    if Text.isAllBlank trigger.pipelineKey then .error (.emptyTriggerKey index f.id)
    else .ok ()

/-- Checks a list of definitions that starts at a position, up to the first that is not valid. -/
def checkAll : Nat → List FlowConfig → Except DefinitionError Unit
  | _, [] => .ok ()
  | index, f :: fs => do
    f.check index
    checkAll (index + 1) fs

/-- The flow that a flow's definition stands for, if it either reads or triggers. -/
def flow? (f : FlowConfig) : Option Flow :=
  match f.reader, f.trigger with
  | some reader, none => some (.read ⟨f.id, f.desc, reader, f.writers⟩)
  | none, some trigger => some (.trigger ⟨f.id, f.desc, trigger.pipelineKey, trigger.params⟩)
  | _, _ => none

end FlowConfig

namespace PipelineConfig

def check (c : PipelineConfig) : Except DefinitionError Unit := FlowConfig.checkAll 0 c.flows

/-- The pipeline of a definition that is valid; hooks without any form are dropped. -/
def toPipeline (c : PipelineConfig) (key : String) : Except DefinitionError Pipeline := do
  c.check
  return {
    key
    flows := c.flows.filterMap FlowConfig.flow?
    pre := c.pre.filter (!·.isEmpty)
    post := c.post.filter (!·.isEmpty)
    schedules := c.schedules
    scheduleEnabled := c.scheduleEnabled
    paramsProvider := c.paramsProvider
    components := c.components
    scripts := c.scripts }

/-- The definition in a YAML text, if it is well formed and valid. -/
def ofYaml (text : String) : Except DefinitionError PipelineConfig := do
  let config ← ((Source.ofYaml text).bind PipelineConfig.read).mapError .yaml
  config.check
  return config

end PipelineConfig

/-- The pipeline defined by a YAML text. -/
def Pipeline.ofYaml (key text : String) : Except DefinitionError Pipeline := do
  (← PipelineConfig.ofYaml text).toPipeline key

def EngineConfig.ofYaml (text : String) : Except DefinitionError EngineConfig :=
  ((Source.ofYaml text).bind EngineConfig.read).mapError .yaml

end RowFlow
