import RowFlow.Engine.Cascade
import RowFlow.Engine.Transform

/-!
# Reading flows

A flow prepares its reader and all its writers before it reads. It reads one row, all rows, or
batch after batch from a cursor that is closed in the end, whatever happens in between.
-/

namespace RowFlow.Engine

variable {σ : Type}

/-- Sets the variable that a flow shows its rows in, if it has one. -/
def capture (spec : ReaderSpec) (value : Value) : Run σ EngineError Unit :=
  match spec.capture with
  | none => pure ()
  | some name => Run.modifyContext (·.set name value)

/-- Reads from a cursor up to its end. -/
def consume (reader : Target) (onBatch : Nat → List Row → Run σ EngineError Unit) :
    Nat → Batches σ → Run σ EngineError Unit
  | _, .last finish =>
    (Run.access (.nextBatch reader) finish).mapError (.reader reader.name)
  | index, .next read rest => do
    match ← (Run.access (.nextBatch reader) read).mapError (.reader reader.name) with
    | none => return
    | some batch =>
      let world ← Run.world
      onBatch index batch
      consume reader onBatch (index + 1) (rest world)

/-- Transforms and writes a batch. An empty one is announced and nothing else. -/
def processBatch (engine : Engine σ) (key flow : String) (spec : ReaderSpec)
    (writers : List (WriterSpec × ReadyWriter σ)) (index : Nat) (batch : List Row) :
    Run σ EngineError Unit := do
  Run.modifyContext (·.set Context.batchIndexKey (.nat index))
  Run.modifyContext (·.set Context.batchSizeKey (.nat spec.batchSize))
  Run.emit (.batchRead key flow index batch.length)
  if !batch.isEmpty then
    let rows ← engine.transform spec batch
    if !rows.isEmpty then engine.writeAll key writers rows

/-- An error while reading or writing wins over one while closing. -/
def readInBatches (engine : Engine σ) (key flow : String) (spec : ReaderSpec)
    (r : ReadyReader σ) (writers : List (WriterSpec × ReadyWriter σ)) :
    Run σ EngineError Unit := do
  let failure (error : AdapterError) : EngineError := .reader r.target.name error
  let ctx ← Run.context
  let opening := Run.access (.openBatches r.target spec.batchSize)
    (r.reader.findBatches spec.batchSize ctx)
  let cursor ← opening.mapError failure
  let consumed ← (consume r.target (engine.processBatch key flow spec writers) 1
    cursor.batches).attempt
  let closed ← (Run.access (.closeBatches r.target) cursor.close).attempt
  Run.ofExcept consumed
  Run.ofExcept (closed.mapError failure)

def readOne (engine : Engine σ) (key : String) (spec : ReaderSpec) (r : ReadyReader σ)
    (writers : List (WriterSpec × ReadyWriter σ)) : Run σ EngineError Unit := do
  let ctx ← Run.context
  let found ← (Run.access (.findOne r.target) (r.reader.findOne ctx)).mapError
    (.reader r.target.name)
  match found with
  | none => return
  | some row =>
    match ← engine.transform spec [row] with
    | [] => return
    | row :: _ =>
      capture spec (.object row)
      engine.writeAll key writers [row]

def readAll (engine : Engine σ) (key : String) (spec : ReaderSpec) (r : ReadyReader σ)
    (writers : List (WriterSpec × ReadyWriter σ)) : Run σ EngineError Unit := do
  let ctx ← Run.context
  let found ← (Run.access (.findAll r.target) (r.reader.findAll ctx)).mapError
    (.reader r.target.name)
  let rows ← engine.transform spec found
  capture spec (.ofRows rows)
  engine.writeAll key writers rows

def prepareWriters (engine : Engine σ) (key : String) (ctx : Context) (specs : List WriterSpec) :
    Except EngineError (List (WriterSpec × ReadyWriter σ)) :=
  specs.mapM fun spec => do return (spec, ← engine.prepareWriter key ctx spec.settings)

/-- Runs a flow that reads; its label is given in rendered form. -/
def readFlow (engine : Engine σ) (key label : String) (flow : ReadFlow) :
    Run σ EngineError Unit := do
  let ctx ← Run.context
  let spec := flow.reader
  let r ← Run.ofExcept (engine.prepareReader key ctx spec)
  let writers ← Run.ofExcept (engine.prepareWriters key ctx flow.writers)
  match spec.mode with
  | .one => engine.readOne key spec r writers
  | .allAtOnce => engine.readAll key spec r writers
  | .batched => engine.readInBatches key label spec r writers

end RowFlow.Engine
