import RowFlow.Context
import RowFlow.Definition
import RowFlow.Disk
import RowFlow.Source

/-!
# Components

Components read rows, write rows or just run. Each call works on the world around the run: the
file system, what has been printed, and a state of the components' own, of any type. Writers and
runnables may also change the context.

A component is bound to the text of its instruction first, and is driven in its bound form.
-/

namespace RowFlow

/-- Why a reader or a writer refuses. -/
inductive AdapterError where
  | io (detail : String)
  | rejected (message : String)
  | unsupported (message : String)
  | other (message : String)
deriving DecidableEq, Repr

def AdapterError.message : AdapterError → String
  | .io detail => s!"I/O error: {detail}"
  | .rejected message => s!"record rejected: {message}"
  | .unsupported message => s!"operation not supported: {message}"
  | .other message => message

/-- How a call may fail: with an error, which its caller handles, or by a panic, which ends the
run. -/
inductive Failure (ε : Type) where
  | error (e : ε)
  | panic (message : String)
deriving Repr

/-- Rewords the error; a panic stays what it is. -/
def Failure.map (f : ε → ε') : Failure ε → Failure ε'
  | .error e => .error (f e)
  | .panic message => .panic message

/-- What is around a run. -/
structure World (σ : Type) where
  disk : Disk := {}
  /-- What has been printed. -/
  console : String := ""
  /-- The components' own state. -/
  state : σ

/-- The context of a run and the world around it. -/
structure Site (σ : Type) where
  context : Context
  world : World σ

/-- A call that leaves the context alone. -/
abbrev Access (σ ε : Type) := ExceptT (Failure ε) (StateM (World σ))

/-- A call that may change the context. -/
abbrev Act (σ ε : Type) := ExceptT (Failure ε) (StateM (Site σ))

variable {σ ε ε' : Type}

def Access.fail (e : ε) : Access σ ε α := throw (.error e)

def Act.fail (e : ε) : Act σ ε α := throw (.error e)

def Access.mapError (f : ε → ε') (call : Access σ ε α) : Access σ ε' α := fun world =>
  let (answer, world) := call world
  (answer.mapError (Failure.map f), world)

/-- A call that works on the file system alone. -/
def Access.onDisk (call : StateM Disk (Except ε α)) : Access σ ε α := fun world =>
  let (answer, disk) := call world.disk
  (answer.mapError .error, { world with disk })

/-- Lets a call work on the world of a site. -/
def Access.toAct (call : Access σ ε α) : Act σ ε α := fun site =>
  let (answer, world) := call site.world
  (answer, { site with world })

/-! ## Readers -/

/-- The batches still to come. Whether there is another one may depend on the world at the time of
asking, but in every world a cursor ends after finitely many. -/
inductive Batches (σ : Type) where
  /-- The next answer is the end, or an error. -/
  | last (finish : Access σ AdapterError Unit)
  /-- The next answer may be a batch, and then there may be others, given the world after it. -/
  | next (read : Access σ AdapterError (Option (List Row))) (rest : World σ → Batches σ)

structure Cursor (σ : Type) where
  batches : Batches σ
  close : Access σ AdapterError Unit

/-- A cursor that hands out the given batches and closes without fail. -/
def Batches.ofList : List (List Row) → Batches σ
  | [] => .last (pure ())
  | batch :: rest => .next (pure (some batch)) fun _ => ofList rest

/-- The batches up to the end or the first error, and the world after it. -/
def Batches.drain : Batches σ → World σ → List (List Row) × World σ
  | .last finish, world => ([], (finish world).2)
  | .next read rest, world =>
    match read world with
    | (.ok (some batch), world) =>
      let (batches, world) := (rest world).drain world
      (batch :: batches, world)
    | (_, world) => ([], world)

def Cursor.ofList (batches : List (List Row)) : Cursor σ := ⟨.ofList batches, pure ()⟩

structure BoundReader (σ : Type) where
  findOne : Context → Access σ AdapterError (Option Row)
  findAll : Context → Access σ AdapterError (List Row)
  /-- Opens a cursor with batches of the given size. -/
  findBatches : Nat → Context → Access σ AdapterError (Cursor σ)

structure Reader (σ : Type) where
  bind : Option String → InstructionFormat → Except ReadError (BoundReader σ)

/-! ## Writers -/

/-- The bulk calls and the single-row calls of a sink. -/
structure Sink (σ : Type) where
  batch : WriteAction → List Row → Act σ AdapterError Unit
  row : WriteAction → Row → Act σ AdapterError Unit

/-- A sink that knows single-row calls only. -/
structure RowCalls (σ : Type) where
  create : Row → Act σ AdapterError Unit
  update : Row → Act σ AdapterError Unit
  replace : Row → Act σ AdapterError Unit

/-- What does not exist yet is replaced just as well. -/
def RowCalls.row (calls : RowCalls σ) : WriteAction → Row → Act σ AdapterError Unit
  | .create => calls.create
  | .update => calls.update
  | .replace => calls.replace
  | .createOrReplace => calls.replace

/-- A bulk call makes the single-row calls in order and stops at the first that fails. -/
def RowCalls.toSink (calls : RowCalls σ) : Sink σ where
  batch action rows := rows.forM (calls.row action)
  row := calls.row

structure Writer (σ : Type) where
  /-- Whether the only action is to create. -/
  appendOnly : Bool
  bind : Option String → InstructionFormat → Except ReadError (Sink σ)

/-- A writer that is bound to its instruction. -/
structure BoundWriter (σ : Type) where
  appendOnly : Bool
  sink : Sink σ

def Writer.bound (w : Writer σ) (instruction : Option String) (format : InstructionFormat) :
    Except ReadError (BoundWriter σ) :=
  (w.bind instruction format).map (⟨w.appendOnly, ·⟩)

namespace BoundWriter

/-- Whether the writer knows an action. -/
def supports (w : BoundWriter σ) (action : WriteAction) : Bool :=
  !w.appendOnly || action = .create

def refuse (action : WriteAction) : Act σ AdapterError Unit :=
  Act.fail (.unsupported s!"{action.name} on an append-only writer")

def writeBatch (w : BoundWriter σ) (action : WriteAction) (rows : List Row) :
    Act σ AdapterError Unit :=
  if w.supports action then w.sink.batch action rows else refuse action

def writeRow (w : BoundWriter σ) (action : WriteAction) (row : Row) : Act σ AdapterError Unit :=
  if w.supports action then w.sink.row action row else refuse action

end BoundWriter

/-! ## All components -/

inductive Component (σ : Type) where
  | reader (r : Reader σ)
  | writer (w : Writer σ)
  | runnable (run : Act σ String Unit)

def Component.kind : Component σ → String
  | .reader _ => "reader"
  | .writer w => if w.appendOnly then "appender" else "updater"
  | .runnable _ => "runnable"

end RowFlow
