import RowFlow.Definition
import RowFlow.Source

/-!
# Reading definitions

The names of the fields, the other names that some of them may have, and what fields that are left
out stand for.
-/

namespace RowFlow

open Source

def InstructionFormat.named : String → Option InstructionFormat
  | "json" | "JSON" => some .json
  | "yaml" | "YAML" => some .yaml
  | _ => none

def WriteAction.named : String → Option WriteAction
  | "CREATE" => some .create
  | "UPDATE" => some .update
  | "REPLACE" => some .replace
  | "CREATE_OR_REPLACE" => some .createOrReplace
  | _ => none

def ReadMode.named : String → Option ReadMode
  | "ONE" => some .one
  | "ALL_AT_ONCE" => some .allAtOnce
  | "BATCHED" => some .batched
  | _ => none

def InstructionFormat.read : Decoder InstructionFormat := variant InstructionFormat.named

def WriteAction.read : Decoder WriteAction := variant WriteAction.named

def ReadMode.read : Decoder ReadMode := variant ReadMode.named

def TransformerSpec.read : Decoder TransformerSpec := fun source => do
  let fields ← source.fields ["template", "function", "allAtOnce", "mergeToOriginal"]
    [("jsFunctionName", "function"), ("transformAllAtOnce", "allAtOnce"),
      ("transformAndMergeToOriginal", "mergeToOriginal")] 0
  return {
    template := ← fields.optional "template" text
    function := ← fields.optional "function" text
    allAtOnce := ← fields.withDefault "allAtOnce" bool false
    mergeToOriginal := ← fields.withDefault "mergeToOriginal" bool false }

def ReaderSpec.read : Decoder ReaderSpec := fun source => do
  let fields ← source.fields
    ["beanName", "readInstruction", "instructionFormat", "mode", "batchSize", "transformer",
      "transformAndMergeToOriginal", "enrichmentOrFilterFunction", "writeToVariableName", "id",
      "desc"]
    [("instructionSerDe", "instructionFormat")] 1
  return {
    component := ← fields.required "beanName" text
    instruction := ← fields.optional "readInstruction" text
    format := ← fields.withDefault "instructionFormat" InstructionFormat.read .json
    mode := ← fields.withDefault "mode" ReadMode.read .batched
    batchSize := ← fields.withDefault "batchSize" nat 5000
    transformer := ← fields.optional "transformer" TransformerSpec.read
    mergeToOriginal := ← fields.withDefault "transformAndMergeToOriginal" bool false
    filter := ← fields.optional "enrichmentOrFilterFunction" text
    capture := ← fields.optional "writeToVariableName" text
    id := ← fields.withDefault "id" text ""
    desc := ← fields.withDefault "desc" text "" }

/-- Reads a writer and the writers that follow it, nested no deeper than the given depth. -/
def WriterSpec.readWithin : Nat → Decoder WriterSpec
  | 0, _ => .error (.type "a writer")
  | depth + 1, source => do
    let fields ← source.fields
      ["beanName", "action", "writeInstruction", "instructionFormat", "enabled", "onSuccess",
        "onFailure", "id", "desc"]
      [("instructionSerDe", "instructionFormat")] 0
    let settings : WriterSettings := {
      component := ← fields.withDefault "beanName" text "consoleWriter"
      action := ← fields.withDefault "action" WriteAction.read .create
      instruction := ← fields.optional "writeInstruction" text
      format := ← fields.withDefault "instructionFormat" InstructionFormat.read .json
      enabled := ← fields.withDefault "enabled" bool true
      id := ← fields.withDefault "id" text ""
      desc := ← fields.withDefault "desc" text "" }
    return .mk settings (← fields.optional "onSuccess" (readWithin depth))
      (← fields.optional "onFailure" (readWithin depth))

/-- No document nests deeper than this. -/
def WriterSpec.read : Decoder WriterSpec := readWithin (Yaml.Reader.deepest + 1)

def ScriptCall.read : Decoder ScriptCall := fun source => do
  let fields ← source.fields ["functionName", "args"] [] 1
  return {
    function := ← fields.required "functionName" text
    args := ← fields.withDefault "args" (list Source.value) [] }

def Hook.read : Decoder Hook := fun source => do
  let fields ← source.fields ["inlineScript", "runnable", "scriptInstruction"]
    [("inlineJavascript", "inlineScript")] 0
  return {
    inlineScript := ← fields.optional "inlineScript" text
    runnable := ← fields.optional "runnable" text
    scriptCall := ← fields.optional "scriptInstruction" ScriptCall.read }

def CronSpec.read : Decoder CronSpec := fun source => do
  let fields ← source.fields ["expression", "timeZone"] [("cronExpression", "expression")] 1
  return {
    expression := ← fields.required "expression" text
    timeZone := ← fields.optional "timeZone" text }

def LockSpec.read : Decoder LockSpec := fun source => do
  let fields ← source.fields ["lockName", "lockAtLeastFor", "lockAtMostFor"] [] 1
  return {
    name := ← fields.required "lockName" text
    atLeast := ← fields.withDefault "lockAtLeastFor" nat 300
    atMost := ← fields.withDefault "lockAtMostFor" nat 600 }

def Schedule.read : Decoder Schedule := fun source => do
  let fields ← source.fields ["scheduleName", "cron", "lock", "paramList"]
    [("cronAttributes", "cron"), ("lockAttributes", "lock")] 2
  return {
    name := ← fields.required "scheduleName" text
    cron := ← fields.required "cron" CronSpec.read
    lock := ← fields.optional "lock" LockSpec.read
    params := ← fields.withDefault "paramList" rows [] }

def ComponentSpec.read : Decoder ComponentSpec := fun source => do
  let fields ← source.fields ["factory", "config"] [] 1
  return {
    factory := ← fields.required "factory" text
    config := ← fields.withDefault "config" Source.value .null }

def TriggerSpec.read : Decoder TriggerSpec := fun source => do
  let fields ← source.fields ["pipelineKey", "params"] [] 1
  return {
    pipelineKey := ← fields.required "pipelineKey" text
    params := ← fields.optional "params" rows }

def FlowConfig.read : Decoder FlowConfig := fun source => do
  let fields ← source.fields ["id", "desc", "reader", "writers", "pipelineTrigger"]
    [("pipelineTriggerInstruction", "pipelineTrigger")] 0
  return {
    id := ← fields.withDefault "id" text ""
    desc := ← fields.withDefault "desc" text ""
    reader := ← fields.optional "reader" ReaderSpec.read
    writers := ← fields.withDefault "writers" (list WriterSpec.read) []
    trigger := ← fields.optional "pipelineTrigger" TriggerSpec.read }

def PipelineConfig.read : Decoder PipelineConfig := fun source => do
  let fields ← source.fields
    ["flows", "pre", "post", "schedules", "scheduleEnabled", "paramsListProviderScript",
      "components", "scripts"]
    [("scheduleItEnabled", "scheduleEnabled"), ("dynaBeans", "components")] 0
  return {
    flows := ← fields.withDefault "flows" (list FlowConfig.read) []
    pre := ← fields.optional "pre" Hook.read
    post := ← fields.optional "post" Hook.read
    schedules := ← fields.withDefault "schedules" (list Schedule.read) []
    scheduleEnabled := ← fields.withDefault "scheduleEnabled" bool true
    paramsProvider := ← fields.optional "paramsListProviderScript" ScriptCall.read
    components := ← fields.withDefault "components" (dict ComponentSpec.read) []
    scripts := ← fields.withDefault "scripts" (list text) [] }

def DeadLetterConfig.read : Decoder DeadLetterConfig := fun source => do
  let fields ← source.fields ["writer", "writeInstruction", "instructionFormat"] [] 0
  return {
    writer := ← fields.withDefault "writer" text "failedRecordsAppender"
    instruction := ← fields.optional "writeInstruction" text
    format := ← fields.withDefault "instructionFormat" InstructionFormat.read .json }

def EngineConfig.read : Decoder EngineConfig := fun source => do
  let fields ← source.fields ["pipelines", "asyncPoolSize", "deadLetter", "historyDb"] [] 0
  return {
    pipelines := ← fields.withDefault "pipelines" (dict text) []
    asyncPoolSize := ← fields.withDefault "asyncPoolSize" nat 2
    deadLetter := ← fields.withDefault "deadLetter" DeadLetterConfig.read {}
    historyDb := ← fields.optional "historyDb" text }

end RowFlow
