import RowFlow.Engine.Basic

/-!
# Writing and its failures

A writer is given all rows in one call. If that fails it is given them again one by one. The rows
it has written go on to the writer for successes. The others go on to the writer for failures, and
then to the dead letters. Both writers do the same with the rows they are given.
-/

namespace RowFlow

/-- What has become of the rows that a writer was given. -/
structure Outcome where
  written : List Row := []
  failed : List Row := []
  /-- Whether the call for all rows failed, so that they were written one by one. -/
  retried : Bool := false
  /-- Whether the writer was not called at all. -/
  skipped : Bool := false
deriving Repr

namespace Engine

variable {σ : Type}

/-- Writes rows one by one and sorts them by success. -/
def writeEach (w : ReadyWriter σ) (action : WriteAction) : List Row → Run σ EngineError Outcome
  | [] => return { retried := true }
  | row :: rows => do
    let call := Run.call (.writeRow w.target action row) (w.writer.writeRow action row)
    match ← call.attempt with
    | .ok () =>
      let rest ← writeEach w action rows
      return { rest with written := row :: rest.written }
    | .error _ =>
      let rest ← writeEach w action rows
      return { rest with failed := row :: rest.failed }

/-- Writes rows in one call, and one by one if that fails. -/
def deliver (w : ReadyWriter σ) (action : WriteAction) (rows : List Row) :
    Run σ EngineError Outcome := do
  let call := Run.call (.writeBatch w.target action rows) (w.writer.writeBatch action rows)
  match ← call.attempt with
  | .ok () => return { written := rows }
  | .error _ => writeEach w action rows

/-! ## Dead letters -/

/-- A failed row with the pipeline and the batch it comes from. -/
def deadRecord (key : String) (ctx : Context) (row : Row) : Row :=
  Dict.ofEntries [
    (Context.pipelineKeyKey, .text key),
    (Context.batchIndexKey, (ctx.get? Context.batchIndexKey).getD .null),
    ("failedRecord", .object row)]

/-- The writer of dead letters, if the name of their component stands for a writer. A blank
instruction counts as none. -/
def prepareDeadLetter (engine : Engine σ) (key : String) (ctx : Context) :
    Except EngineError (Option (ReadyWriter σ)) := do
  let config := engine.deadLetter
  match engine.registry.resolve (some key) config.writer with
  | some (.writer writer) =>
    let given := config.instruction.filter fun template => !Text.isAllBlank template
    let instruction ← ctx.renderOption given
    let bound ← (writer.bound instruction config.format).mapError (.instruction config.writer)
    return some ⟨⟨config.writer, instruction⟩, bound⟩
  | _ => return none

/-- Hands failed rows, if there are any, to the writer of dead letters, in one call. -/
def bury (engine : Engine σ) (key : String) (failed : List Row) : Run σ EngineError Unit := do
  if failed.isEmpty then return
  else
    let ctx ← Run.context
    match ← Run.ofExcept (engine.prepareDeadLetter key ctx) with
    | none => return
    | some w =>
      let records := failed.map (deadRecord key ctx)
      (Run.call (.deadLetter w.target records) (w.writer.writeBatch .create records)).mapError
        (.deadLetter w.target.name)

/-! ## The cascade -/

def skip (key : String) (w : ReadyWriter σ) (reason : String) : Run σ EngineError Outcome := do
  Run.emit (.writerSkipped key w.target.name reason)
  return { skipped := true }

mutual

/-- Writes rows with a writer that is ready, and has the writers that follow it go on. -/
def write (engine : Engine σ) (key : String) :
    WriterSpec → ReadyWriter σ → List Row → Run σ EngineError Outcome
  | .mk settings onSuccess onFailure, w, rows => do
    if !settings.enabled then skip key w "disabled"
    else if rows.isEmpty then skip key w "no rows"
    else if !w.writer.supports settings.action then
      Run.fail (.unsupportedAction w.target.name settings.action)
    else
      let outcome ← deliver w settings.action rows
      engine.passOn key (.rowsWritten key w.target.name settings.action) onSuccess outcome.written
      engine.passOn key (.recordsFailed key w.target.name) onFailure outcome.failed
      engine.bury key outcome.failed
      return outcome

/-- Announces how many rows there are, unless there are none, and hands them on to the writer that
follows, if there is one. It is prepared only now. -/
def passOn (engine : Engine σ) (key : String) (announcement : Nat → Event) :
    Option WriterSpec → List Row → Run σ EngineError Unit
  | next, rows => do
    if rows.isEmpty then return
    else
      Run.emit (announcement rows.length)
      match next with
      | none => return
      | some spec =>
        let w ← Run.ofExcept (engine.prepareWriter key (← Run.context) spec.settings)
        let _ ← engine.write key spec w rows

end

/-- Writes the same rows with each of several writers, in order. -/
def writeAll (engine : Engine σ) (key : String) (writers : List (WriterSpec × ReadyWriter σ))
    (rows : List Row) : Run σ EngineError Unit :=
  writers.forM fun (spec, w) => do
    let _ ← engine.write key spec w rows

end Engine

end RowFlow
