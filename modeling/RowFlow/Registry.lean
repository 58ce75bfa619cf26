import RowFlow.Component
import RowFlow.Definition.Checking

/-!
# The registry of components

Components by name. The ones that a pipeline declares are known to that pipeline only, and there
they hide global ones of the same name. A pipeline's components are built first, in the order of
their names, and then replace its earlier ones all together.
-/

namespace RowFlow

/-- Builds a component from its configuration, or says why not. -/
abbrev Factory (σ : Type) := Value → Except String (Component σ)

structure Registry (σ : Type) where
  factories : Dict (Factory σ) := []
  globals : Dict (Component σ) := []
  /-- The components that each pipeline declares, by the pipeline's key. -/
  declared : Dict (Dict (Component σ)) := []

namespace Registry

variable {σ : Type}

def register (r : Registry σ) (name : String) (component : Component σ) : Registry σ :=
  { r with globals := r.globals.insert name component }

def registerFactory (r : Registry σ) (name : String) (factory : Factory σ) : Registry σ :=
  { r with factories := r.factories.insert name factory }

def hasFactory (r : Registry σ) (name : String) : Bool := r.factories.contains name

/-- Builds the component that a name is declared as. -/
def build (r : Registry σ) (name : String) (spec : ComponentSpec) :
    Except DefinitionError (Component σ) :=
  match r.factories.find? spec.factory with
  | none => .error (.unknownFactory name spec.factory)
  | some factory => (factory spec.config).mapError (.componentBuild name)

/-- Builds declarations in order, up to the first that fails. -/
def buildAll (r : Registry σ) : Dict ComponentSpec → Except DefinitionError (Dict (Component σ))
  | [] => .ok []
  | (name, spec) :: specs => do
    let component ← r.build name spec
    return (name, component) :: (← r.buildAll specs)

/-- Replaces all components of a pipeline. -/
def install (r : Registry σ) (key : String) (components : Dict (Component σ)) : Registry σ :=
  { r with declared :=
      if components.isEmpty then r.declared.erase key else r.declared.insert key components }

/-- The components that a pipeline declares. -/
def componentsOf (r : Registry σ) (key : String) : Dict (Component σ) :=
  (r.declared.find? key).getD []

/-- The component of a name: the pipeline's own, or else the global one. -/
def resolve (r : Registry σ) (key : Option String) (name : String) : Option (Component σ) :=
  match key.bind fun key => (r.componentsOf key).find? name with
  | some component => some component
  | none => r.globals.find? name

def names (r : Registry σ) : List String := r.globals.keys

def pipelineNames (r : Registry σ) (key : String) : List String := (r.componentsOf key).keys

end Registry

end RowFlow
