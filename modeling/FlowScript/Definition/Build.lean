import FlowScript.Definition.Basic
import FlowScript.Registry

/-!
# Building scripts from definitions

Every node of every graph is created before any link is connected, so that a link may lead into a
graph that is defined later.
-/

namespace FlowScript

/-- Why a script could not be loaded or saved. -/
inductive LoadError where
  | duplicateNodeKey (key : String)
  | unknownNodeKey (key : String)
  | unknownLink (node link : String)
  | core (error : ScriptError)
  /-- The text is not a definition. -/
  | malformed
  /-- The definition cannot be written down. -/
  | unwritable
  /-- The file cannot be read as text. -/
  | unreadable
deriving DecidableEq, Inhabited

/-- The wording of an error. -/
def LoadError.message : LoadError → String
  | duplicateNodeKey key => "Duplicate node key: " ++ key
  | unknownNodeKey key => "Unknown node key: " ++ key
  | unknownLink node link => "Unknown link " ++ link ++ " on node " ++ node
  | core error => error.message
  | malformed => "RON parse error"
  | unwritable => "RON write error"
  | unreadable => "IO error"

/-- The ids that authored keys name. -/
abbrev Keys := Keyed String NodeId

/-- A script with the keys of its nodes. -/
structure Loaded (β : Type) where
  script : Script β
  keys : Keys := []

namespace Loaded

variable {β : Type}

/-- The node of a key. -/
def node? (loaded : Loaded β) (key : String) : Option NodeId := Keyed.get? loaded.keys key

/-- The node of a key that must exist. -/
def resolve (loaded : Loaded β) (key : String) : Except LoadError NodeId :=
  (loaded.node? key).elim (.error (.unknownNodeKey key)) .ok

/-- Creates the nodes of a graph. -/
def placeNodes (registry : Registry β) (graph : GraphId) :
    List NodeDef → Loaded β → Except LoadError (Loaded β)
  | [], loaded => .ok loaded
  | node :: rest, loaded =>
    if Keyed.contains loaded.keys node.key then .error (.duplicateNodeKey node.key)
    else do
      let (id, script) ←
        (registry.instantiate loaded.script graph node.type node.properties).mapError .core
      placeNodes registry graph rest ⟨script, Keyed.insert loaded.keys node.key id⟩

mutual

/-- Creates the nodes of a graph and then the graphs nested in it. -/
def place (registry : Registry β) : GraphDef → GraphId → Loaded β → Except LoadError (Loaded β)
  | ⟨_, nodes, _, _, subs⟩, graph, loaded => do
    placeAll registry subs graph (← placeNodes registry graph nodes loaded)

/-- Creates nested graphs with all that is in them. -/
def placeAll (registry : Registry β) :
    List GraphDef → GraphId → Loaded β → Except LoadError (Loaded β)
  | [], _, loaded => .ok loaded
  | sub :: rest, parent, loaded => do
    let (id, script) ← (loaded.script.addGraph parent sub.name).mapError .core
    placeAll registry rest parent (← place registry sub id { loaded with script := script })

end

/-- Connects a control link. A link that is connected already is passed over. -/
def wire (loaded : Loaded β) (link : LinkDef) : Except LoadError (Loaded β) := do
  let source ← loaded.resolve link.source
  let target ← loaded.resolve link.target
  let _ ← (loaded.script.outputIndex source link.output).mapError
    fun _ => LoadError.unknownLink link.source link.output
  let _ ← (loaded.script.inputIndex target link.input).mapError
    fun _ => LoadError.unknownLink link.target link.input
  let (_, script) ←
    (loaded.script.connectByName source link.output target link.input).mapError .core
  return { loaded with script := script }

/-- Binds a value link. -/
def bind (loaded : Loaded β) (binding : BindingDef) : Except LoadError (Loaded β) := do
  let node ← loaded.resolve binding.node
  let cell ← loaded.resolve binding.cell
  let _ ← (loaded.script.linkIndex node binding.link).mapError
    fun _ => LoadError.unknownLink binding.node binding.link
  let script ← (loaded.script.connectValueByName node binding.link cell).mapError .core
  return { loaded with script := script }

/-- Connects the links of a graph and then binds its value links. -/
def join (loaded : Loaded β) (graph : GraphDef) : Except LoadError (Loaded β) := do
  graph.bindings.foldlM bind (← graph.links.foldlM wire loaded)

end Loaded

/-- Builds the script that a definition describes. -/
def GraphDef.build {β : Type} (definition : GraphDef) (registry : Registry β) :
    Except LoadError (Loaded β) := do
  let placed ← Loaded.place registry definition rootGraph
    { script := Script.withRootName definition.name }
  definition.preorder.foldlM Loaded.join placed

end FlowScript
