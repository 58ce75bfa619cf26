import RowFlow.Engine.Error
import RowFlow.Event

/-!
# The journal of a run

A run works on a site and keeps a journal of what happens, newest first: the steps it begins, the
events it announces, and every call of a component or of the scripts, with the site before and
after the call.
-/

namespace RowFlow

/-- A component as a run has bound it: its name, and the text of its instruction. -/
structure Target where
  name : String
  instruction : Option String
deriving DecidableEq, Repr

/-- What a run asks of components and scripts. -/
inductive Call where
  | runnable (name : String)
  | loadScript (source : String)
  | function (name : String) (args : List Value)
  | findOne (reader : Target)
  | findAll (reader : Target)
  | openBatches (reader : Target) (size : Nat)
  | nextBatch (reader : Target)
  | closeBatches (reader : Target)
  | writeBatch (writer : Target) (action : WriteAction) (rows : List Row)
  | writeRow (writer : Target) (action : WriteAction) (row : Row)
  | deadLetter (writer : Target) (records : List Row)
deriving Repr

/-- The forms of a hook, in the order in which they run. -/
inductive HookForm where
  | inlineScript
  | runnable
  | scriptCall
deriving DecidableEq, Repr

/-- What the plan of a run is made of. -/
inductive Step where
  | hook (pipeline : String) (phase : Phase) (form : HookForm)
  | flow (pipeline : String) (flow : Flow)
deriving Repr

inductive Entry (σ : Type) where
  | step (step : Step)
  | event (event : Event)
  | call (call : Call) (before after : Site σ) (succeeded : Bool)

/-- A run on its way. -/
structure Live (σ : Type) extends Site σ where
  /-- What has happened so far, newest first. -/
  journal : List (Entry σ) := []

/-- A part of a run. What it has done stands in the journal also when it fails. -/
abbrev Run (σ ε : Type) := ExceptT (Failure ε) (StateM (Live σ))

namespace Run

variable {σ ε ε' α : Type}

def fail (e : ε) : Run σ ε α := throw (.error e)

def ofExcept : Except ε α → Run σ ε α
  | .ok a => pure a
  | .error e => fail e

def mapError (f : ε → ε') (run : Run σ ε α) : Run σ ε' α := fun live =>
  let (answer, live) := run live
  (answer.mapError (Failure.map f), live)

/-- Goes on after an error, and answers it. A panic still ends the run. -/
def attempt (run : Run σ ε α) : Run σ ε' (Except ε α) := fun live =>
  let (answer, live) := run live
  match answer with
  | .ok a => (.ok (.ok a), live)
  | .error (.error e) => (.ok (.error e), live)
  | .error (.panic message) => (.error (.panic message), live)

def context : Run σ ε Context := return (← get).context

def world : Run σ ε (World σ) := return (← get).world

def modifyContext (f : Context → Context) : Run σ ε Unit :=
  modify fun live => { live with context := f live.context }

def record (entry : Entry σ) : Run σ ε Unit :=
  modify fun live => { live with journal := entry :: live.journal }

def emit (event : Event) : Run σ ε Unit := record (.event event)

def begin (step : Step) : Run σ ε Unit := record (.step step)

/-- Makes a call and enters it into the journal. -/
def call (what : Call) (act : Act σ ε α) : Run σ ε α := fun live =>
  let (answer, site) := act live.toSite
  let entry := .call what live.toSite site answer.isOk
  (answer, { toSite := site, journal := entry :: live.journal })

/-- Works on the file system; this is not entered into the journal. -/
def onDisk (call : StateM Disk (Except ε α)) : Run σ ε α := fun live =>
  let (answer, disk) := call live.world.disk
  (answer.mapError .error, { live with world := { live.world with disk } })

/-- Makes a call that leaves the context alone. -/
def access (what : Call) (call : Access σ ε α) : Run σ ε α := Run.call what call.toAct

end Run

end RowFlow
