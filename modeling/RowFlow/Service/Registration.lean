import RowFlow.Service.Basic

/-!
# Registering pipelines

A definition is read and checked, its components are built, its writers are checked against the
components that they name, and its scripts are loaded. Only then does it take the place of an
earlier definition, and its schedules are handed to the scheduler.
-/

namespace RowFlow

variable {σ τ : Type}

/-! ## The writers of a definition -/

/-- A name in which no placeholder can begin stands for one component, which is known before a
run. -/
def isLiteral (name : String) : Bool := !Template.hasOpening name.toList

namespace Registry

/-- The component that a name will stand for once a definition's components are installed. -/
def foresee (r : Registry σ) (components : Dict (Component σ)) (name : String) :
    Option (Component σ) :=
  match components.find? name with
  | some component => some component
  | none => r.resolve none name

/-- Whether a writer is asked for an action that its component does not know. -/
def contradicts (r : Registry σ) (components : Dict (Component σ)) (s : WriterSettings) : Bool :=
  isLiteral s.component && s.enabled && s.action ≠ .create &&
    match r.foresee components s.component with
    | some (.writer w) => w.appendOnly
    | _ => false

/-- The first writer with such an action: a writer before those for successes, and these before
those for failures. -/
def contradiction? (r : Registry σ) (components : Dict (Component σ)) :
    WriterSpec → Option WriterSettings
  | .mk settings onSuccess onFailure =>
    let successes := match onSuccess with
      | some w => r.contradiction? components w
      | none => none
    let failures := match onFailure with
      | some w => r.contradiction? components w
      | none => none
    if r.contradicts components settings then some settings
    else successes.or failures

def checkFlow (r : Registry σ) (components : Dict (Component σ)) :
    Flow → Except DefinitionError Unit
  | .trigger _ => .ok ()
  | .read flow =>
    match flow.writers.findSome? (r.contradiction? components) with
    | some settings => .error (.unsupportedAction flow.id settings.component settings.action)
    | none => .ok ()

/-- Checks the writers of all flows, in order. -/
def checkWriters (r : Registry σ) (components : Dict (Component σ)) (p : Pipeline) :
    Except DefinitionError Unit :=
  p.flows.forM (r.checkFlow components)

end Registry

/-! ## Scripts -/

namespace Engine

/-- Loads a script file; a relative path starts from a folder, if there is one. -/
def loadScript (engine : Engine σ) (folder : Option String) (path : String) :
    Run σ DefinitionError Unit := do
  let place := match folder with
    | some folder => Path.join folder path
    | none => path
  let source ← (Run.onDisk (Disk.load place)).mapError (.io place)
  (Run.access (.loadScript source) (engine.scripts.load source)).mapError fun e =>
    .script place e.message

def loadScripts (engine : Engine σ) (folder : Option String) (paths : List String) :
    Run σ DefinitionError Unit :=
  paths.forM (engine.loadScript folder)

/-- Stores a pipeline in place of the one with the same key. -/
def insertPipeline (engine : Engine σ) (p : Pipeline) : Engine σ :=
  { engine with pipelines := engine.pipelines.insert p.key p }

end Engine

/-! ## Registration -/

namespace Service

/-- A pipeline whose components are built and whose writers fit them. -/
structure Checked (σ : Type) where
  pipeline : Pipeline
  components : Dict (Component σ)

/-- Reads a definition and checks it against the registry. -/
def check (registry : Registry σ) (key text : String) : Except DefinitionError (Checked σ) := do
  let pipeline ← Pipeline.ofYaml key text
  let components ← registry.buildAll pipeline.components
  registry.checkWriters components pipeline
  return ⟨pipeline, components⟩

/-- Puts a checked pipeline in place. -/
def install (c : Checked σ) : Operation σ τ Unit :=
  modify fun s =>
    let registry := s.engine.registry.install c.pipeline.key c.components
    let engine := { s.engine with registry }
    { s with engine := engine.insertPipeline c.pipeline }

/-- Hands schedules to the scheduler, up to the first that it refuses. -/
def scheduleAll (key : String) : List Schedule → Operation σ τ (Except DefinitionError Unit)
  | [] => return .ok ()
  | schedule :: rest => do
    match (← get).scheduler with
    | none => scheduleAll key rest
    | some scheduler =>
      match scheduler.schedule key schedule with
      | .error message => return .error (.schedule schedule.name message)
      | .ok scheduler =>
        modify fun s => { s with scheduler := some scheduler }
        scheduleAll key rest

/-- The schedules that a pipeline has started. -/
def activeSchedules (p : Pipeline) : List Schedule := if p.scheduleEnabled then p.schedules else []

/-- Registers a definition whose script files are looked for in a folder. -/
def registerIn (folder : Option String) (key text : String) :
    Operation σ τ (Except DefinitionError Unit) := do
  let engine := (← get).engine
  match check engine.registry key text with
  | .error e => return .error e
  | .ok checked =>
    match ← perform (engine.loadScripts folder checked.pipeline.scripts) with
    | .error (.error e) => return .error e
    | .error (.panic message) => return .error (.script key message)
    | .ok () =>
      install checked
      scheduleAll key (activeSchedules checked.pipeline)

/-- Registers a definition. -/
def register (key text : String) : Operation σ τ (Except DefinitionError Unit) := do
  registerIn (← get).folder key text

/-- Registers the definition in a file; its script files are looked for beside it. -/
def registerFile (key path : String) : Operation σ τ (Except DefinitionError Unit) := do
  match ← onDisk (Disk.load path) with
  | .error detail => return .error (.io path detail)
  | .ok text => registerIn (Path.parent? path) key text

end Service

end RowFlow
