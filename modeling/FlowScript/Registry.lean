import FlowScript.Script.Values

/-!
# Registries of node types

A registry maps each node type to a factory. A factory sees the authored properties, because some
of them shape the node; the registry then applies all of them on top of what the factory made.
-/

namespace FlowScript

/-- Describes a node of one type from its authored properties. -/
abbrev Factory (β : Type) := PropertySet → NodeBuilder β

/-- Factories in the order of their registration. -/
structure Registry (β : Type) where
  factories : Keyed TypeId (Factory β) := []

namespace Registry

variable {β : Type}

/-- Adds a factory for a type that has none yet. -/
def register (registry : Registry β) (type : TypeId) (factory : Factory β) :
    Except ScriptError (Registry β) :=
  if Keyed.contains registry.factories type then .error (.duplicateNodeType type)
  else .ok ⟨Keyed.insert registry.factories type factory⟩

/-- Adds factories one after another, up to the first that is refused; those before it stay. -/
def registerAll (registry : Registry β) :
    List (TypeId × Factory β) → Except ScriptError Unit × Registry β
  | [] => (.ok (), registry)
  | (type, factory) :: rest =>
    match registry.register type factory with
    | .ok next => next.registerAll rest
    | .error e => (.error e, registry)

/-- Whether a type is registered. -/
def contains (registry : Registry β) (type : TypeId) : Bool :=
  Keyed.contains registry.factories type

/-- The registered types. -/
def types (registry : Registry β) : List TypeId := Keyed.keys registry.factories

/-- The registered types of a category. -/
def typesIn (registry : Registry β) (category : String) : List TypeId :=
  registry.types.filter (·.category == category)

/-- Describes a node of a registered type with the authored properties applied. -/
def create (registry : Registry β) (type : TypeId) (properties : PropertySet) :
    Except ScriptError (NodeBuilder β) :=
  match Keyed.get? registry.factories type with
  | none => .error (.unknownNodeType type)
  | some factory => (factory properties).withOverrides properties

/-- Creates a node of a registered type in a graph. -/
def instantiate (registry : Registry β) (script : Script β) (graph : GraphId) (type : TypeId)
    (properties : PropertySet) : Except ScriptError (NodeId × Script β) := do
  script.addNode graph (← registry.create type properties)

/-- The same types with another type of behavior. -/
def map {γ : Type} (f : β → γ) (registry : Registry β) : Registry γ :=
  ⟨registry.factories.map fun (type, factory) => (type, fun props => (factory props).map f)⟩

end Registry

end FlowScript
