import RowFlow.Value

/-!
# Definitions

What a pipeline is made of. A `PipelineConfig` is a definition as it is written; a `Pipeline` has
flows of which each either reads or triggers.
-/

namespace RowFlow

/-- The format in which an instruction's text is parsed. -/
inductive InstructionFormat where
  | json
  | yaml
deriving DecidableEq, Repr

def InstructionFormat.name : InstructionFormat → String
  | .json => "json"
  | .yaml => "yaml"

/-- How a writer changes its target. -/
inductive WriteAction where
  | create
  | update
  | replace
  | createOrReplace
deriving DecidableEq, Repr

def WriteAction.name : WriteAction → String
  | .create => "CREATE"
  | .update => "UPDATE"
  | .replace => "REPLACE"
  | .createOrReplace => "CREATE_OR_REPLACE"

/-- How many rows are read and written at a time. -/
inductive ReadMode where
  | one
  | allAtOnce
  | batched
deriving DecidableEq, Repr

def ReadMode.name : ReadMode → String
  | .one => "ONE"
  | .allAtOnce => "ALL_AT_ONCE"
  | .batched => "BATCHED"

/-- What reshapes rows, one by one or all in one step. -/
structure TransformerSpec where
  template : Option String
  function : Option String
  allAtOnce : Bool
  mergeToOriginal : Bool
deriving Repr

structure ReaderSpec where
  /-- The template of the component's name. -/
  component : String
  /-- The template of the instruction's text. -/
  instruction : Option String := none
  format : InstructionFormat := .json
  mode : ReadMode := .batched
  batchSize : Nat := 5000
  transformer : Option TransformerSpec := none
  mergeToOriginal : Bool := false
  /-- The function that is given the rows and answers the rows to go on with. -/
  filter : Option String := none
  /-- The variable that is set to the rows. -/
  capture : Option String := none
  id : String := ""
  desc : String := ""
deriving Repr

/-- A writer without the writers that follow it. -/
structure WriterSettings where
  component : String := "consoleWriter"
  action : WriteAction := .create
  instruction : Option String := none
  format : InstructionFormat := .json
  enabled : Bool := true
  id : String := ""
  desc : String := ""
deriving Repr

/-- A writer, the writer of the rows it has written, and the writer of the rows it could not
write. -/
inductive WriterSpec where
  | mk (settings : WriterSettings) (onSuccess onFailure : Option WriterSpec)
deriving Repr

def WriterSpec.settings : WriterSpec → WriterSettings
  | .mk settings _ _ => settings

/-- A call of a script function with literal arguments. -/
structure ScriptCall where
  function : String
  args : List Value := []
deriving Repr

/-- What runs before or after the flows of a pipeline: a script, a component and a function, each
if it is given. -/
structure Hook where
  inlineScript : Option String := none
  runnable : Option String := none
  scriptCall : Option ScriptCall := none
deriving Repr

def Hook.isEmpty (h : Hook) : Bool :=
  h.inlineScript.isNone && h.runnable.isNone && h.scriptCall.isNone

structure CronSpec where
  expression : String
  timeZone : Option String := none
deriving Repr

/-- The lock of a scheduled run. A run keeps it for at least and at most so many seconds. -/
structure LockSpec where
  name : String
  atLeast : Nat := 300
  atMost : Nat := 600
deriving Repr

structure Schedule where
  name : String
  cron : CronSpec
  lock : Option LockSpec := none
  /-- The parameter sets of every scheduled run. -/
  params : List Row := []
deriving Repr

/-- A component that a pipeline declares for itself. -/
structure ComponentSpec where
  factory : String
  config : Value := .null
deriving Repr

structure TriggerSpec where
  pipelineKey : String
  params : Option (List Row) := none
deriving Repr

/-- A flow as it is written, which may be no valid flow. -/
structure FlowConfig where
  id : String := ""
  desc : String := ""
  reader : Option ReaderSpec := none
  writers : List WriterSpec := []
  trigger : Option TriggerSpec := none
deriving Repr

structure PipelineConfig where
  flows : List FlowConfig := []
  pre : Option Hook := none
  post : Option Hook := none
  schedules : List Schedule := []
  scheduleEnabled : Bool := true
  paramsProvider : Option ScriptCall := none
  components : Dict ComponentSpec := []
  scripts : List String := []
deriving Repr

/-- A flow that reads rows and hands them to writers. -/
structure ReadFlow where
  id : String
  desc : String
  reader : ReaderSpec
  writers : List WriterSpec
deriving Repr

/-- A flow that runs another pipeline in the same context. -/
structure TriggerFlow where
  id : String
  desc : String
  pipelineKey : String
  params : Option (List Row)
deriving Repr

inductive Flow where
  | read (flow : ReadFlow)
  | trigger (flow : TriggerFlow)
deriving Repr

def Flow.id : Flow → String
  | .read f => f.id
  | .trigger f => f.id

def Flow.desc : Flow → String
  | .read f => f.desc
  | .trigger f => f.desc

structure Pipeline where
  key : String
  flows : List Flow
  pre : Option Hook
  post : Option Hook
  schedules : List Schedule
  scheduleEnabled : Bool
  paramsProvider : Option ScriptCall
  components : Dict ComponentSpec
  scripts : List String
deriving Repr

def Pipeline.readFlowCount (p : Pipeline) : Nat :=
  p.flows.countP fun
    | .read _ => true
    | .trigger _ => false

/-- Where the records go that no writer could write. -/
structure DeadLetterConfig where
  writer : String := "failedRecordsAppender"
  instruction : Option String := none
  format : InstructionFormat := .json
deriving Repr

structure EngineConfig where
  /-- The definition file of each pipeline. -/
  pipelines : Dict String := []
  asyncPoolSize : Nat := 2
  deadLetter : DeadLetterConfig := {}
  historyDb : Option String := none
deriving Repr

end RowFlow
