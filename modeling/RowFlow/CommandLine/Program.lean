import RowFlow.CommandLine.Help
import RowFlow.CommandLine.HistoryFile
import RowFlow.CommandLine.Output
import RowFlow.Component.Builtin
import RowFlow.Service.Registration

/-!
# The program

Each command prints its answer and comes out well or badly. A run is made in three parts, so that a
caller with a clock can tell when it has started and when it has ended.
-/

namespace RowFlow.CommandLine

/-- What the program is started with. -/
structure Machine where
  disk : Disk
  /-- The folder that the default history is kept in. -/
  dataFolder : String
  now : Time
  /-- The id of a run that is made. -/
  runId : String
  coloured : Bool := false

/-- How the program ends. -/
structure Ending where
  exit : Nat := 0
  output : String := ""
  errors : String := ""
  disk : Disk

/-! ## Trouble -/

/-- Why a command can not do its work: a reason, and the reasons for that. -/
structure Trouble where
  reasons : List String

namespace Trouble

def because (t : Trouble) (reason : String) : Trouble := ⟨reason :: t.reasons⟩

/-- A reason of several lines is indented as a whole. -/
def indented (first next : String) (reason : String) : String :=
  first ++ ("\n" ++ next).intercalate (reason.splitOn "\n")

def numbered : Nat → List String → List String
  | _, [] => []
  | n, reason :: reasons =>
    let number := toString n
    let space := String.ofList (List.replicate (5 - number.length) ' ')
    indented s!"{space}{number}: " "       " reason :: numbered (n + 1) reasons

def message (t : Trouble) : String :=
  match t.reasons with
  | [] => ""
  | [reason] => s!"Error: {reason}\n"
  | [reason, cause] =>
    let text := indented "    " "    " cause
    s!"Error: {reason}\n\nCaused by:\n{text}\n"
  | reason :: causes =>
    let text := "\n".intercalate (numbered 0 causes)
    s!"Error: {reason}\n\nCaused by:\n{text}\n"

def ofDefinition (e : DefinitionError) : Trouble :=
  match e with
  | .io _ detail => ⟨[e.message, detail]⟩
  | .yaml error => ⟨[e.message, error.message]⟩
  | _ => ⟨[e.message]⟩

end Trouble

/-- The work of a command on the files. -/
abbrev Work := ExceptT Trouble (StateM Disk)

/-- Ends with trouble, after what has been printed. -/
def Ending.trouble (disk : Disk) (output : String) (t : Trouble) : Ending :=
  { exit := 1, output, errors := t.message, disk }

/-! ## The engine configuration -/

/-- A configuration, and the folder that its paths start from. -/
structure Configuration where
  engine : EngineConfig := {}
  folder : Option String := none

namespace Configuration

def resolve (c : Configuration) (path : String) : String :=
  match c.folder with
  | some folder => Path.join folder path
  | none => path

def load (path : Option String) : Work Configuration := do
  match path with
  | none => return {}
  | some path =>
    let refuse (e : DefinitionError) : Work Configuration :=
      throw ((Trouble.ofDefinition e).because s!"Failed to load config {path}")
    match ← Disk.load path with
    | .error detail => refuse (.io path detail)
    | .ok text =>
      match EngineConfig.ofYaml text with
      | .error e => refuse e
      | .ok engine => return ⟨engine, Path.parent? path⟩

end Configuration

/-! ## The history -/

/-- A history and the file it is kept in, if it is kept. -/
structure OpenHistory where
  store : TableStore := {}
  path : Option String := none

/-- Opens the configured history, or the default one, whose folder is made. -/
def openHistory (dataFolder : String) (c : Configuration) : Work OpenHistory := do
  let path ← match c.engine.historyDb with
    | some path => pure (c.resolve path)
    | none => do
      modify (·.makeFolder dataFolder)
      pure (dataFolder ++ "/runs.db")
  match ← HistoryFile.load path with
  | .ok store => return ⟨store, some path⟩
  | .error fault => throw ⟨[s!"Failed to open run history at {path}", fault.message]⟩

/-! ## run -/

/-- A run that has been started. -/
structure Session where
  record : RunRecord
  params : Option (List Row)
  service : Service Unit TableStore
  /-- The file of the history, if the run is kept in it. -/
  path : Option String
  coloured : Bool
  /-- Whether events are shown. -/
  events : Bool
  /-- How the run has gone, when it has been made. -/
  result : Except EngineError Unit := .ok ()

namespace Session

/-- Registers the pipelines of a configuration, in the order of their keys. -/
def registerAll (c : Configuration) :
    List (String × String) → Operation Unit TableStore (Except Trouble Unit)
  | [] => return .ok ()
  | (key, path) :: rest => do
    let place := c.resolve path
    match ← Service.registerFile key place with
    | .ok () => registerAll c rest
    | .error e =>
      return .error ((Trouble.ofDefinition e).because
        s!"Failed to register pipeline '{key}' from {place}")

def registerExtra (command : RunCommand) (coloured : Bool) :
    Operation Unit TableStore (Except Trouble Unit) := do
  match command.file with
  | none => return .ok ()
  | some file =>
    match ← Service.registerFile command.pipeline file with
    | .error e => return .error ((Trouble.ofDefinition e).because s!"Failed to register {file}")
    | .ok () =>
      let name := Style.bold.paint coloured command.pipeline
      let line := s!"{info} Loaded pipeline: {name}\n"
      modify fun s => { s with world := { s.world with console := s.world.console ++ line } }
      return .ok ()

/-- A service with the components that are always there, and no scripts. -/
def newService (machine : Machine) (disk : Disk) (c : Configuration) (history : TableStore) :
    Service Unit TableStore :=
  { engine := {
      registry := Builtin.addTo {}
      scripts := FunctionTable.toHost []
      deadLetter := c.engine.deadLetter }
    folder := c.folder
    history
    world := { disk, state := () }
    origin := machine.now
    runId := fun _ => machine.runId }

/-- What a run needs from files and arguments before pipelines are registered. -/
structure Setting where
  configuration : Configuration
  params : Option (List Row)
  history : OpenHistory

def setting (machine : Machine) (invocation : Invocation) (command : RunCommand) :
    Work Setting := do
  let c ← Configuration.load invocation.config
  let params ← match command.paramSets with
    | .ok params => pure params
    | .error e => throw ⟨[e.message]⟩
  let history ← if command.noHistory then pure {} else openHistory machine.dataFolder c
  return ⟨c, params, history⟩

/-- Registers the pipelines and records that a run has started. -/
def prepare (c : Configuration) (command : RunCommand) (coloured : Bool) :
    Operation Unit TableStore (Except Trouble RunRecord) := do
  match ← registerAll c c.engine.pipelines with
  | .error t => return .error t
  | .ok () =>
    match ← registerExtra command coloured with
    | .error t => return .error t
    | .ok () => return .ok (← Service.begin (← Service.newRecord command.pipeline))

/-- Starts a run. -/
def start (machine : Machine) (invocation : Invocation) (command : RunCommand) :
    Except Ending Session :=
  match setting machine invocation command machine.disk with
  | (.error t, disk) => .error (.trouble disk "" t)
  | (.ok ⟨c, params, history⟩, disk) =>
    match prepare c command machine.coloured (newService machine disk c history.store) with
    | (.error t, s) => .error (.trouble s.world.disk s.world.console t)
    | (.ok record, s) => .ok {
        record, params, service := s, path := history.path, coloured := machine.coloured
        events := invocation.events }

/-- Makes the run. -/
def execute (session : Session) : Session :=
  let record := session.record
  let (result, s) := Service.transportOnTask record.runId record.pipeline session.params
    session.service
  { session with result, service := s }

/-- The events of the run, one on a line. -/
def eventLines (session : Session) : String :=
  if session.events then
    String.join (session.service.journal.reverse.map fun
      | .event e => eventText session.coloured e ++ "\n"
      | _ => "")
  else ""

/-- Records how the run has ended, so many nanoseconds after its start, and says so. -/
def finish (session : Session) (elapsed : Nat) : Ending :=
  let ((), s) := (do Service.pass elapsed; Service.settle session.record session.result)
    session.service
  let disk := match session.path with
    | some path => s.world.disk.write path (HistoryFile.write s.history)
    | none => s.world.disk
  let name := Style.bold.paint session.coloured session.record.pipeline
  let (exit, line) := match session.result with
    | .ok () =>
      let done := Style.green.paint session.coloured "successfully"
      let id := Style.dim.paint session.coloured session.record.runId
      (0, s!"\n{check} {name} completed {done} (run {id})\n")
    | .error _ =>
      let failed := Style.red.paint session.coloured "failed"
      (1, s!"\n{cross} {name} {failed}\n")
  { exit, output := s.world.console ++ line, errors := session.eventLines, disk }

end Session

/-! ## validate -/

/-- The key that a definition file gives its pipeline. -/
def keyOfFile (path : String) : String := (Path.stem? path).getD "pipeline"

def readPipeline (path : String) : StateM Disk (Except DefinitionError Pipeline) := do
  match ← Disk.load path with
  | .error detail => return .error (.io path detail)
  | .ok text => return Pipeline.ofYaml (keyOfFile path) text

/-- Warnings about components that no factory is there for. -/
def factoryWarnings (p : Pipeline) : String :=
  let registry : Registry Unit := Builtin.addTo {}
  let missing := p.components.filter fun (_, spec) => !registry.hasFactory spec.factory
  String.join (missing.map fun (name, spec) =>
    s!"  {warning} component '{name}' uses factory '{spec.factory}', "
      ++ "which this binary does not provide\n")

def describe (coloured : Bool) (p : Pipeline) : String :=
  let count (n : Nat) : String := Style.cyan.paint coloured (toString n)
  s!"{check} Pipeline definition is valid!\n"
    ++ s!"  Key: {Style.bold.paint coloured p.key}\n"
    ++ s!"  Flows: {count p.flows.length} ({p.readFlowCount} reader flows)\n"
    ++ s!"  Schedules: {count p.schedules.length}\n"
    ++ s!"  Components: {count p.components.length}\n"
    ++ factoryWarnings p

def validate (machine : Machine) (command : ValidateCommand) : Ending :=
  let heading := s!"{info} Validating pipeline...\n"
  match readPipeline command.file machine.disk with
  | (.error e, disk) =>
    let text := Style.red.paint machine.coloured e.message
    { exit := 1, output := s!"{heading}{cross} Validation failed:\n  {text}\n", disk }
  | (.ok p, disk) =>
    let data := if command.json then s!"\n{Json.pretty p.value}\n" else ""
    { output := heading ++ describe machine.coloured p ++ data, disk }

/-! ## list -/

def listLine (coloured withCounts : Bool) (key path : String) (runs : List RunRecord) : String :=
  let name := Style.bold.paint coloured key
  if withCounts then
    let count (style : Style) (n : Nat) : String := style.paint coloured (toString n)
    let completed := count .green (runs.countP (·.status = .completed))
    let failed := count .red (runs.countP (·.status = .failed))
    s!"  {name} ({count .cyan runs.length} runs: {completed} succeeded, {failed} failed)\n"
  else s!"  {name} {Style.dim.paint coloured path}\n"

def listPipelines (machine : Machine) (c : Configuration) (command : ListCommand) :
    Work String := do
  let history ← if command.withCounts || command.json then openHistory machine.dataFolder c
    else pure {}
  let entries := c.engine.pipelines.map fun (key, path) =>
    (key, c.resolve path, RunStore.ofPipeline history.store key)
  let lines := entries.map fun (key, path, runs) =>
    listLine machine.coloured command.withCounts key path runs
  let data := entries.map fun (key, path, runs) => Value.object [
    ("key", .text key), ("path", .text path), ("run_count", .nat runs.length)]
  let document := Value.object [("pipelines", .list data)]
  let text := if command.json then s!"\n{Json.pretty document}\n" else ""
  return s!"{info} Configured pipelines:\n{String.join lines}{text}"

def list (machine : Machine) (config : Option String) (command : ListCommand) : Work String := do
  if config.isNone then
    throw ⟨["`list` needs --config pointing at an engine configuration file"]⟩
  let c ← Configuration.load config
  if c.engine.pipelines.isEmpty then
    return s!"{info} No pipelines configured\n"
  listPipelines machine c command

/-! ## history -/

/-- The whole seconds from one time to another, if that is not earlier. -/
def secondsBetween? (a b : Time) : Option Nat :=
  let nanos : Int := (b.second - a.second) * 1000000000 + b.nano - a.nano
  if 0 ≤ nanos then some (nanos.toNat / 1000000000) else none

def timeLine (coloured : Bool) (name : String) (t : Time) : String :=
  s!"  {name}: {Style.dim.paint coloured t.offsetText}\n"

def detailsText (coloured : Bool) (r : RunRecord) (full : Bool) : String :=
  let ended := match r.started, r.completed with
    | some started, some completed =>
      let duration := match secondsBetween? started completed with
        | some seconds => s!"  Duration: {Style.dim.paint coloured (durationText seconds)}\n"
        | none => ""
      timeLine coloured "Completed" completed ++ duration
    | _, _ => ""
  let started := (r.started.map (timeLine coloured "Started")).getD ""
  let error := (r.error.map fun e => s!"  Error: {Style.red.paint coloured e}\n").getD ""
  let data := if full then
      let lines := (Json.pretty r.value).splitOn "\n"
      let heading := Style.bold.paint coloured "Full details:"
      s!"\n  {heading}\n" ++ String.join (lines.map fun line => s!"    {line}\n")
    else ""
  s!"{info} Run Details\n"
    ++ s!"  ID: {Style.cyan.paint coloured r.runId}\n"
    ++ s!"  Pipeline: {Style.bold.paint coloured r.pipeline}\n"
    ++ s!"  Status: {statusText coloured r.status}\n"
    ++ timeLine coloured "Submitted" r.submitted ++ started ++ ended ++ error ++ data

def historyText (coloured : Bool) (command : HistoryCommand) (store : TableStore) : String :=
  match command.runId with
  | some runId =>
    match RunStore.load? store runId with
    | some r => detailsText coloured r command.details
    | none => s!"{warning} Run not found\n"
  | none =>
    let runs := match command.pipeline with
      | some key => (RunStore.ofPipeline store key).take command.limit
      | none => RunStore.recent store command.limit
    if runs.isEmpty then s!"{info} No runs found\n"
    else if command.json then
      let data := Value.object [("runs", .list (runs.map RunRecord.value))]
      s!"{Json.pretty data.normal}\n"
    else
      s!"{info} Run history (showing latest {command.limit}):\n"
        ++ String.join (runs.map fun r => s!"  {summary coloured r}\n")

def history (machine : Machine) (config : Option String) (command : HistoryCommand) :
    Work String := do
  let c ← Configuration.load config
  let h ← openHistory machine.dataFolder c
  return historyText machine.coloured command h.store

/-! ## All commands -/

/-- Does the work of a command on the files of a machine, and prints the answer. -/
def Machine.answer (machine : Machine) (work : Work String) : Ending :=
  match work machine.disk with
  | (.ok output, disk) => { output, disk }
  | (.error t, disk) => .trouble disk "" t

/-- What arguments lead to: an ending, or a run that has been started. -/
def start (machine : Machine) (args : List String) : Except Ending Session :=
  match parse args with
  | .error e =>
    let text := e.message
    throw (if e.isAnswer then { output := text, disk := machine.disk }
      else { exit := 2, errors := text, disk := machine.disk })
  | .ok invocation =>
    match invocation.command with
    | .run command => Session.start machine invocation command
    | .validate command => throw (validate machine command)
    | .list command => throw (machine.answer (list machine invocation.config command))
    | .history command => throw (machine.answer (history machine invocation.config command))

/-- The program as a whole, for a run that takes no time. -/
def perform (machine : Machine) (args : List String) : Ending :=
  match start machine args with
  | .error ending => ending
  | .ok session => session.execute.finish 0

end RowFlow.CommandLine
