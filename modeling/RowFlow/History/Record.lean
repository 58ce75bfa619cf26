import RowFlow.Source
import RowFlow.Time

/-!
# Records of runs

What is known about a run: where it stands, when it was submitted, started and ended, and why it
failed.
-/

namespace RowFlow

inductive RunStatus where
  | pending
  | running
  | completed
  | failed
deriving DecidableEq, Repr

namespace RunStatus

def isTerminal : RunStatus → Bool
  | .completed | .failed => true
  | .pending | .running => false

def name : RunStatus → String
  | .pending => "Pending"
  | .running => "Running"
  | .completed => "Completed"
  | .failed => "Failed"

def named : String → Option RunStatus
  | "Pending" => some .pending
  | "Running" => some .running
  | "Completed" => some .completed
  | "Failed" => some .failed
  | _ => none

end RunStatus

structure RunRecord where
  runId : String
  pipeline : String
  status : RunStatus := .pending
  submitted : Time
  started : Option Time := none
  completed : Option Time := none
  error : Option String := none
deriving DecidableEq, Repr

namespace RunRecord

def start (r : RunRecord) (now : Time) : RunRecord :=
  { r with status := .running, started := some now }

def complete (r : RunRecord) (now : Time) : RunRecord :=
  { r with status := .completed, completed := some now }

def fail (r : RunRecord) (now : Time) (message : String) : RunRecord :=
  { r with status := .failed, completed := some now, error := some message }

/-! ## Records as data -/

def timeValue (t : Time) : Value := .text t.text

def value (r : RunRecord) : Value := .object [
  ("run_id", .text r.runId),
  ("pipeline_key", .text r.pipeline),
  ("status", .text r.status.name),
  ("submitted_at", timeValue r.submitted),
  ("started_at", .ofOption timeValue r.started),
  ("completed_at", .ofOption timeValue r.completed),
  ("error", .ofOption .text r.error)]

def readTime : Decoder Time := fun source => do
  let text ← source.text
  match Time.parse? text with
  | some t => return t
  | none => throw (.value text "a time")

def read : Decoder RunRecord := fun source => do
  let fields ← source.fields
    ["run_id", "pipeline_key", "status", "submitted_at", "started_at", "completed_at", "error"]
    [] 7
  return {
    runId := ← fields.required "run_id" Source.text
    pipeline := ← fields.required "pipeline_key" Source.text
    status := ← fields.required "status" (Source.variant RunStatus.named)
    submitted := ← fields.required "submitted_at" readTime
    started := ← fields.optional "started_at" readTime
    completed := ← fields.optional "completed_at" readTime
    error := ← fields.optional "error" Source.text }

end RunRecord

end RowFlow
