import RowFlow.Engine.Pipelines
import RowFlow.History.Store
import RowFlow.Service.Lock
import RowFlow.Service.Scheduler

/-!
# The service

A service registers pipelines, runs them, and keeps a history of the runs. Runs can also be
submitted, to be made later in the order of submission, or be started by a schedule, which may need
a lock.

Each recorded run is made on a task of its own, and one that is submitted has a task to wait on
before that. When a component panics, the task ends, and what the runtime tells of it is the error
of the run.
-/

namespace RowFlow

/-- A run that has been submitted and not yet started. -/
structure Submission where
  record : RunRecord
  params : Option (List Row)

structure Service (σ τ : Type) where
  engine : Engine σ
  /-- The folder that the script files of a definition are looked for in. -/
  folder : Option String := none
  scheduler : Option Scheduler := none
  locks : Option Locks := none
  history : τ
  waiting : List Submission := []
  world : World σ
  /-- What all runs and registrations have done, newest first. -/
  journal : List (Entry σ) := []
  /-- When the service was started. -/
  origin : Time := ⟨0, 0⟩
  /-- The nanoseconds since then. -/
  clock : Nat := 0
  /-- How many run ids have been made. -/
  runs : Nat := 0
  /-- Makes the run ids. -/
  runId : Nat → String
  /-- How many tasks have been started; the last is the one that a run is made on. -/
  tasks : Nat := 0
  /-- What the runtime tells of a panic on a task: any text, which may tell the task and the
  message. The message stands for it where none is given. -/
  panicText : Nat → String → String := fun _ message => message

/-- An operation of a service. -/
abbrev Operation (σ τ : Type) := StateM (Service σ τ)

namespace Service

variable {σ τ : Type}

/-- Reads the clock, which moves on, so that no two readings are the same. -/
def instant : Operation σ τ Nat :=
  modifyGet fun s => (s.clock, { s with clock := s.clock + 1 })

def now : Operation σ τ Time := do
  let nanos ← instant
  return (← get).origin.later nanos

/-- Lets time pass. -/
def pass (nanos : Nat) : Operation σ τ Unit := modify fun s => { s with clock := s.clock + nanos }

def newRunId : Operation σ τ String :=
  modifyGet fun s => (s.runId s.runs, { s with runs := s.runs + 1 })

/-- Starts a task, on which what follows is done. -/
def newTask : Operation σ τ Unit := modify fun s => { s with tasks := s.tasks + 1 }

/-- Works on the file system. -/
def onDisk (call : StateM Disk α) : Operation σ τ α := fun s =>
  let (answer, disk) := call s.world.disk
  (answer, { s with world := { s.world with disk } })

/-- Lets a part of a run work on the world of the service, in a context of its own. -/
def perform (run : Run σ ε α) : Operation σ τ (Except (Failure ε) α) := fun s =>
  let live : Live σ := { context := .empty, world := s.world, journal := s.journal }
  let (answer, live) := run live
  (answer, { s with world := live.world, journal := live.journal })

/-- Runs a pipeline. A panic comes out as an error, with what the runtime tells of it. -/
def transport (runId key : String) (params : Option (List Row)) :
    Operation σ τ (Except EngineError Unit) := do
  let s ← get
  match ← perform (s.engine.run runId key params) with
  | .ok () => return .ok ()
  | .error (.error e) => return .error e
  | .error (.panic message) => return .error (.interrupted (s.panicText s.tasks message))

/-- Runs a pipeline on a new task. -/
def transportOnTask (runId key : String) (params : Option (List Row)) :
    Operation σ τ (Except EngineError Unit) := do
  newTask
  transport runId key params

/-! ## Recorded runs -/

variable [RunStore τ]

def save (record : RunRecord) : Operation σ τ Unit :=
  modify fun s => { s with history := RunStore.save s.history record }

def newRecord (key : String) : Operation σ τ RunRecord := do
  let runId ← newRunId
  return { runId, pipeline := key, submitted := ← now }

/-- Records that a run starts. -/
def begin (record : RunRecord) : Operation σ τ RunRecord := do
  let record := record.start (← now)
  save record
  return record

/-- Records how a run has ended. -/
def settle (record : RunRecord) (result : Except EngineError Unit) : Operation σ τ Unit := do
  match result with
  | .ok () => save (record.complete (← now))
  | .error e => save (record.fail (← now) e.message)

/-- Makes the run of a record and saves the record whenever it changes. -/
def runRecorded (record : RunRecord) (params : Option (List Row)) :
    Operation σ τ (Except EngineError Unit) := do
  let record ← begin record
  let result ← transportOnTask record.runId record.pipeline params
  settle record result
  return result

/-- Makes a run and answers its id. -/
def run (key : String) (params : Option (List Row)) :
    Operation σ τ (Except EngineError String) := do
  let record ← newRecord key
  let result ← runRecorded record params
  return result.map fun () => record.runId

/-- Submits a run and answers its id. A task waits until the run is made. -/
def submit (key : String) (params : Option (List Row)) : Operation σ τ String := do
  let record ← newRecord key
  save record
  newTask
  modify fun s => { s with waiting := s.waiting ++ [⟨record, params⟩] }
  return record.runId

/-- Makes all runs that have been submitted. -/
def waitIdle : Operation σ τ Unit := do
  let waiting := (← get).waiting
  modify fun s => { s with waiting := [] }
  waiting.forM fun submission => do
    let _ ← runRecorded submission.record submission.params

/-! ## Scheduled runs -/

def runScheduled (key : String) (schedule : Schedule) : Operation σ τ Unit := do
  let record ← newRecord key
  let _ ← runRecorded record (some schedule.params)

/-- Takes a lock if it is free. -/
def acquire (locks : Locks) (lock : LockSpec) : Operation σ τ Bool := do
  let (free, locks) := locks.tryLock lock.name (← instant) (Locks.seconds lock.atMost)
  modify fun s => { s with locks := some locks }
  return free

/-- Releases a lock at the end of its least time from the start. -/
def release (lock : LockSpec) (started : Nat) : Operation σ τ Unit := do
  let now ← instant
  modify fun s =>
    { s with locks := s.locks.map (·.unlock lock.name now (started + Locks.seconds lock.atLeast)) }

/-- Makes the run of a schedule; one with a lock only if the lock is free. -/
def startScheduled (key : String) (schedule : Schedule) : Operation σ τ Unit := do
  match schedule.lock, (← get).locks with
  | some lock, some locks =>
    let started ← instant
    if ← acquire locks lock then
      runScheduled key schedule
      release lock started
  | _, _ => runScheduled key schedule

/-- Starts the run of a schedule by its name; answers whether there is one. -/
def fire (name : String) : Operation σ τ Bool := do
  match (← get).scheduler.bind (·.find? name) with
  | none => return false
  | some (key, schedule) =>
    startScheduled key schedule
    return true

end Service

end RowFlow
