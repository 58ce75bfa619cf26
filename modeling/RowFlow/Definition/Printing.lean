import RowFlow.Definition

/-!
# Definitions as data

Every definition type has a value with all of its fields, in the order of their declaration; an
absent field is null.
-/

namespace RowFlow

open Value

def TransformerSpec.value (t : TransformerSpec) : Value := .object [
  ("template", ofOption .text t.template),
  ("function", ofOption .text t.function),
  ("allAtOnce", .bool t.allAtOnce),
  ("mergeToOriginal", .bool t.mergeToOriginal)]

def ReaderSpec.value (r : ReaderSpec) : Value := .object [
  ("beanName", .text r.component),
  ("readInstruction", ofOption .text r.instruction),
  ("instructionFormat", .text r.format.name),
  ("mode", .text r.mode.name),
  ("batchSize", .nat r.batchSize),
  ("transformer", ofOption TransformerSpec.value r.transformer),
  ("transformAndMergeToOriginal", .bool r.mergeToOriginal),
  ("enrichmentOrFilterFunction", ofOption .text r.filter),
  ("writeToVariableName", ofOption .text r.capture),
  ("id", .text r.id),
  ("desc", .text r.desc)]

def WriterSpec.value : WriterSpec → Value
  | .mk s onSuccess onFailure => .object [
    ("beanName", .text s.component),
    ("action", .text s.action.name),
    ("writeInstruction", ofOption .text s.instruction),
    ("instructionFormat", .text s.format.name),
    ("enabled", .bool s.enabled),
    ("onSuccess", match onSuccess with | some w => w.value | none => .null),
    ("onFailure", match onFailure with | some w => w.value | none => .null),
    ("id", .text s.id),
    ("desc", .text s.desc)]

def ScriptCall.value (c : ScriptCall) : Value := .object [
  ("functionName", .text c.function),
  ("args", .list c.args)]

def Hook.value (h : Hook) : Value := .object [
  ("inlineScript", ofOption .text h.inlineScript),
  ("runnable", ofOption .text h.runnable),
  ("scriptInstruction", ofOption ScriptCall.value h.scriptCall)]

def CronSpec.value (c : CronSpec) : Value := .object [
  ("expression", .text c.expression),
  ("timeZone", ofOption .text c.timeZone)]

def LockSpec.value (l : LockSpec) : Value := .object [
  ("lockName", .text l.name),
  ("lockAtLeastFor", .nat l.atLeast),
  ("lockAtMostFor", .nat l.atMost)]

def Schedule.value (s : Schedule) : Value := .object [
  ("scheduleName", .text s.name),
  ("cron", s.cron.value),
  ("lock", ofOption LockSpec.value s.lock),
  ("paramList", ofRows s.params)]

def ComponentSpec.value (c : ComponentSpec) : Value := .object [
  ("factory", .text c.factory),
  ("config", c.config)]

def TriggerSpec.value (t : TriggerSpec) : Value := .object [
  ("pipelineKey", .text t.pipelineKey),
  ("params", ofOption ofRows t.params)]

def FlowConfig.value (f : FlowConfig) : Value := .object [
  ("id", .text f.id),
  ("desc", .text f.desc),
  ("reader", ofOption ReaderSpec.value f.reader),
  ("writers", .list (f.writers.map WriterSpec.value)),
  ("pipelineTrigger", ofOption TriggerSpec.value f.trigger)]

def componentValues (components : Dict ComponentSpec) : Value :=
  .object (components.map fun (name, spec) => (name, spec.value))

def PipelineConfig.value (c : PipelineConfig) : Value := .object [
  ("flows", .list (c.flows.map FlowConfig.value)),
  ("pre", ofOption Hook.value c.pre),
  ("post", ofOption Hook.value c.post),
  ("schedules", .list (c.schedules.map Schedule.value)),
  ("scheduleEnabled", .bool c.scheduleEnabled),
  ("paramsListProviderScript", ofOption ScriptCall.value c.paramsProvider),
  ("components", componentValues c.components),
  ("scripts", .list (c.scripts.map .text))]

def Flow.value : Flow → Value
  | .read f => .object [
    ("id", .text f.id),
    ("desc", .text f.desc),
    ("reader", f.reader.value),
    ("writers", .list (f.writers.map WriterSpec.value))]
  | .trigger f => .object [
    ("id", .text f.id),
    ("desc", .text f.desc),
    ("pipeline_key", .text f.pipelineKey),
    ("params", ofOption ofRows f.params)]

def Pipeline.value (p : Pipeline) : Value := .object [
  ("key", .text p.key),
  ("flows", .list (p.flows.map Flow.value)),
  ("pre", ofOption Hook.value p.pre),
  ("post", ofOption Hook.value p.post),
  ("schedules", .list (p.schedules.map Schedule.value)),
  ("schedule_enabled", .bool p.scheduleEnabled),
  ("params_list_provider", ofOption ScriptCall.value p.paramsProvider),
  ("components", componentValues p.components),
  ("scripts", .list (p.scripts.map .text))]

def DeadLetterConfig.value (d : DeadLetterConfig) : Value := .object [
  ("writer", .text d.writer),
  ("writeInstruction", ofOption .text d.instruction),
  ("instructionFormat", .text d.format.name)]

def EngineConfig.value (c : EngineConfig) : Value := .object [
  ("pipelines", .object (c.pipelines.map fun (key, path) => (key, .text path))),
  ("asyncPoolSize", .nat c.asyncPoolSize),
  ("deadLetter", c.deadLetter.value),
  ("historyDb", ofOption .text c.historyDb)]

end RowFlow
