import RowFlow.Definition.Reading
import RowFlow.Event

/-!
# Events as data

An event is an object with its name and its own fields.
-/

namespace RowFlow.Event

def name : Event → String
  | .runStarted .. => "RunStarted"
  | .paramsStarted .. => "ParamsStarted"
  | .flowStarted .. => "FlowStarted"
  | .batchRead .. => "BatchRead"
  | .rowsWritten .. => "RowsWritten"
  | .writerSkipped .. => "WriterSkipped"
  | .recordsFailed .. => "RecordsFailed"
  | .runCompleted .. => "RunCompleted"
  | .runFailed .. => "RunFailed"

/-- The fields of an event, in the order of their declaration. -/
def fields : Event → List (String × Value)
  | .runStarted runId pipeline => [("runId", .text runId), ("pipeline", .text pipeline)]
  | .paramsStarted runId pipeline index params => [
    ("runId", .text runId), ("pipeline", .text pipeline), ("index", .nat index),
    ("params", .object params)]
  | .flowStarted pipeline flow desc => [
    ("pipeline", .text pipeline), ("flowId", .text flow), ("desc", .text desc)]
  | .batchRead pipeline flow index rows => [
    ("pipeline", .text pipeline), ("flowId", .text flow), ("batchIndex", .nat index),
    ("rows", .nat rows)]
  | .rowsWritten pipeline writer action rows => [
    ("pipeline", .text pipeline), ("writer", .text writer), ("action", .text action.name),
    ("rows", .nat rows)]
  | .writerSkipped pipeline writer reason => [
    ("pipeline", .text pipeline), ("writer", .text writer), ("reason", .text reason)]
  | .recordsFailed pipeline writer rows => [
    ("pipeline", .text pipeline), ("writer", .text writer), ("rows", .nat rows)]
  | .runCompleted runId pipeline => [("runId", .text runId), ("pipeline", .text pipeline)]
  | .runFailed runId pipeline error => [
    ("runId", .text runId), ("pipeline", .text pipeline), ("error", .text error)]

def value (e : Event) : Value := .object (("event", .text e.name) :: e.fields)

/-- Reads an event. A field that is left out is empty or zero. -/
def read : Decoder Event := fun source => do
  let fields ← source.fields
    ["event", "runId", "pipeline", "index", "params", "flowId", "desc", "batchIndex", "rows",
      "writer", "action", "reason", "error"] [] 13
  let text (name : String) := fields.withDefault name Source.text ""
  let count (name : String) := fields.withDefault name Source.nat 0
  let runId ← text "runId"
  let pipeline ← text "pipeline"
  match ← text "event" with
  | "RunStarted" => return .runStarted runId pipeline
  | "ParamsStarted" =>
    return .paramsStarted runId pipeline (← count "index")
      (← fields.withDefault "params" Source.row [])
  | "FlowStarted" => return .flowStarted pipeline (← text "flowId") (← text "desc")
  | "BatchRead" =>
    return .batchRead pipeline (← text "flowId") (← count "batchIndex") (← count "rows")
  | "RowsWritten" =>
    return .rowsWritten pipeline (← text "writer")
      (← fields.withDefault "action" WriteAction.read .create) (← count "rows")
  | "WriterSkipped" => return .writerSkipped pipeline (← text "writer") (← text "reason")
  | "RecordsFailed" => return .recordsFailed pipeline (← text "writer") (← count "rows")
  | "RunCompleted" => return .runCompleted runId pipeline
  | "RunFailed" => return .runFailed runId pipeline (← text "error")
  | name => throw (.variant name)

end RowFlow.Event
