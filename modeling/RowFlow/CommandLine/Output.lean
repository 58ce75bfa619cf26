import RowFlow.Event
import RowFlow.History.Record
import RowFlow.Json.Printer

/-!
# What the commands print

Lines about events and runs, with marks in front of them, and with colours on a terminal.
-/

namespace RowFlow.CommandLine

/-! ## Styles -/

inductive Style where
  | bold
  | dim
  | red
  | green
  | yellow
  | cyan
deriving DecidableEq, Repr

def Style.code : Style → Nat
  | .bold => 1
  | .dim => 2
  | .red => 31
  | .green => 32
  | .yellow => 33
  | .cyan => 36

/-- The same text if there are no colours. -/
def Style.paint (style : Style) (coloured : Bool) (text : String) : String :=
  if coloured then s!"\x1b[{style.code}m{text}\x1b[0m" else text

def check : String := "✅ "
def cross : String := "❌ "
def waiting : String := "⏳ "
def info : String := "ℹ️  "
def warning : String := "⚠️  "
def rocket : String := "🚀 "

/-! ## Runs -/

/-- The length of the prefix of so many bytes, if it ends between characters. -/
def prefixLength? : Nat → List Char → Option Nat
  | 0, _ => some 0
  | _ + 1, [] => none
  | n + 1, c :: cs =>
    if c.utf8Size ≤ n + 1 then (prefixLength? (n + 1 - c.utf8Size) cs).map (· + 1) else none
termination_by _ cs => cs.length

/-- The first eight bytes of a run id; the whole of it if it is shorter, or if a character would
be cut. -/
def shortId (runId : String) : String :=
  match prefixLength? 8 runId.toList with
  | some n => String.ofList (runId.toList.take n)
  | none => runId

def statusText (coloured : Bool) : RunStatus → String
  | .pending => Style.dim.paint coloured "PENDING"
  | .running => Style.yellow.paint coloured "RUNNING"
  | .completed => Style.green.paint coloured "COMPLETED"
  | .failed => Style.red.paint coloured "FAILED"

def statusMark : RunStatus → String
  | .completed => check
  | .failed => cross
  | .running => waiting
  | .pending => info

/-- One line of the history. -/
def summary (coloured : Bool) (r : RunRecord) : String :=
  let parts := [
    Style.dim.paint coloured (shortId r.runId),
    Style.bold.paint coloured r.pipeline,
    statusText coloured r.status,
    Style.dim.paint coloured r.submitted.shortText]
  let error := r.error.toList.map (Style.red.paint coloured)
  s!"{statusMark r.status} " ++ " - ".intercalate (parts ++ error)

/-- A duration in whole seconds. -/
def durationText (seconds : Nat) : String :=
  if seconds < 60 then s!"{seconds}s"
  else if seconds < 3600 then s!"{seconds / 60}m {seconds % 60}s"
  else s!"{seconds / 3600}h {seconds % 3600 / 60}m {seconds % 60}s"

/-! ## Events -/

def eventText (coloured : Bool) : Event → String
  | .runStarted runId pipeline =>
    let name := Style.bold.paint coloured pipeline
    s!"{rocket} Starting pipeline {name} ({Style.dim.paint coloured (shortId runId)})"
  | .paramsStarted _ _ index params =>
    let text := Style.dim.paint coloured (Json.print (.object params))
    s!"{info} Parameter set #{index + 1} {text}"
  | .flowStarted _ flow desc =>
    let name := Style.cyan.paint coloured flow
    if desc = "" then s!"{waiting} {name}"
    else s!"{waiting} {name} ({Style.dim.paint coloured desc})"
  | .batchRead _ _ index rows =>
    let number := Style.cyan.paint coloured (toString index)
    s!"  batch {number} - {rows} rows"
  | .rowsWritten _ writer action rows =>
    let name := Style.green.paint coloured writer
    s!"  {check} {Style.dim.paint coloured action.name} {rows} rows to {name}"
  | .writerSkipped _ writer reason =>
    s!"  {info} {Style.dim.paint coloured writer} skipped ({reason})"
  | .recordsFailed _ writer rows =>
    let count := Style.red.paint coloured (toString rows)
    s!"  {warning} {count} rows failed in {Style.yellow.paint coloured writer}"
  | .runCompleted runId pipeline =>
    let name := Style.bold.paint coloured pipeline
    let done := Style.green.paint coloured "successfully"
    s!"{check} {name} ({Style.dim.paint coloured (shortId runId)}) completed {done}"
  | .runFailed runId pipeline error =>
    let name := Style.bold.paint coloured pipeline
    let failed := Style.red.paint coloured "failed"
    let id := Style.dim.paint coloured (shortId runId)
    s!"{cross} {name} ({id}) {failed}: {Style.dim.paint coloured error}"

end RowFlow.CommandLine
