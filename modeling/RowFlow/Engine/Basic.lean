import RowFlow.Engine.Journal
import RowFlow.Registry

/-!
# The engine

What a run is given: the pipelines, the components, the scripts, and where failed records go. Names
and instructions are templates; they are rendered against the context whenever a flow runs, and the
components are looked up and bound anew.
-/

namespace RowFlow

structure Engine (σ : Type) where
  pipelines : Dict Pipeline := []
  registry : Registry σ
  scripts : ScriptHost σ
  deadLetter : DeadLetterConfig := {}

/-- A reader that is ready to be called. -/
structure ReadyReader (σ : Type) where
  target : Target
  reader : BoundReader σ

/-- A writer that is ready to be called. -/
structure ReadyWriter (σ : Type) where
  target : Target
  writer : BoundWriter σ

namespace Context

def render (ctx : Context) (template : String) : Except EngineError String :=
  (Template.render template ctx.bindings).mapError .template

def renderOption (ctx : Context) : Option String → Except EngineError (Option String)
  | none => .ok none
  | some template => (ctx.render template).map some

/-- A label is only shown, so one that can not be rendered stays as it is. -/
def label (ctx : Context) (template : String) : String :=
  match Template.render template ctx.bindings with
  | .ok text => text
  | .error _ => template

end Context

namespace Engine

variable {σ : Type}

def findReader (engine : Engine σ) (key name : String) : Except EngineError (Reader σ) :=
  match engine.registry.resolve (some key) name with
  | some (.reader reader) => .ok reader
  | some other => .error (.componentKind name "reader" other.kind)
  | none => .error (.componentNotFound name)

def findWriter (engine : Engine σ) (key name : String) : Except EngineError (Writer σ) :=
  match engine.registry.resolve (some key) name with
  | some (.writer writer) => .ok writer
  | some other => .error (.componentKind name "writer" other.kind)
  | none => .error (.componentNotFound name)

def findRunnable (engine : Engine σ) (key name : String) :
    Except EngineError (Act σ String Unit) :=
  match engine.registry.resolve (some key) name with
  | some (.runnable run) => .ok run
  | some other => .error (.componentKind name "runnable" other.kind)
  | none => .error (.componentNotFound name)

/-- Names, looks up, instructs and binds a reader, in this order. -/
def prepareReader (engine : Engine σ) (key : String) (ctx : Context) (spec : ReaderSpec) :
    Except EngineError (ReadyReader σ) := do
  let name ← ctx.render spec.component
  let reader ← engine.findReader key name
  let instruction ← ctx.renderOption spec.instruction
  let bound ← (reader.bind instruction spec.format).mapError (.instruction name)
  return ⟨⟨name, instruction⟩, bound⟩

/-- Names, looks up, instructs and binds a writer, in this order. A writer that is enabled must know
its action. -/
def prepareWriter (engine : Engine σ) (key : String) (ctx : Context) (settings : WriterSettings) :
    Except EngineError (ReadyWriter σ) := do
  let name ← ctx.render settings.component
  let writer ← engine.findWriter key name
  let instruction ← ctx.renderOption settings.instruction
  let bound ← (writer.bound instruction settings.format).mapError (.instruction name)
  if settings.enabled && !bound.supports settings.action then
    throw (.unsupportedAction name settings.action)
  return ⟨⟨name, instruction⟩, bound⟩

end Engine

end RowFlow
