import FlowScript.Graph
import FlowScript.Node

/-!
# Scripts

A script holds every graph and every node and hands out their ids. All cross references are ids
that are looked up here; removing a node or a graph takes off every reference to it.
-/

namespace FlowScript

/-- A tree of graphs and the nodes in them, both in order of creation. -/
structure Script (β : Type) where
  graphs : List Graph
  nodes : List (Node β)
  /-- The nodes of each type, in order of creation. -/
  byType : Keyed TypeId (List NodeId)
  nextGraph : Nat
  nextNode : Nat

/-- The root graph of every script. -/
def rootGraph : GraphId := ⟨0⟩

namespace Script

variable {β : Type}

/-- A script with an empty root graph of the given name. -/
def withRootName (name : String) : Script β where
  graphs := [{ id := rootGraph, name := name, parent := none }]
  nodes := []
  byType := []
  nextGraph := 1
  nextNode := 0

/-- A script with an empty root graph. -/
def empty : Script β := withRootName "root"

/-- Looks a graph up. -/
def graph? (script : Script β) (id : GraphId) : Option Graph :=
  script.graphs.find? (·.id = id)

/-- Looks a node up. -/
def node? (script : Script β) (id : NodeId) : Option (Node β) :=
  script.nodes.find? (·.id = id)

/-- Whether a graph exists. -/
def containsGraph (script : Script β) (id : GraphId) : Bool := (script.graph? id).isSome

/-- Whether a node exists. -/
def containsNode (script : Script β) (id : NodeId) : Bool := (script.node? id).isSome

/-- Changes a graph. -/
def modifyGraph (script : Script β) (id : GraphId) (f : Graph → Graph) : Script β :=
  { script with graphs := script.graphs.map fun g => if g.id = id then f g else g }

/-- Changes a node. -/
def modifyNode (script : Script β) (id : NodeId) (f : Node β → Node β) : Script β :=
  { script with nodes := script.nodes.map fun n => if n.id = id then f n else n }

/-- Changes an input. -/
def modifyInput (script : Script β) (ref : InputRef) (f : InputLink → InputLink) : Script β :=
  script.modifyNode ref.node (·.modifyInput ref.index f)

/-- Changes an output. -/
def modifyOutput (script : Script β) (ref : OutputRef) (f : OutputLink → OutputLink) : Script β :=
  script.modifyNode ref.node (·.modifyOutput ref.index f)

/-- Changes a value link. -/
def modifyLink (script : Script β) (ref : ValueLinkRef) (f : ValueLink → ValueLink) : Script β :=
  script.modifyNode ref.node (·.modifyLink ref.index f)

/-- Looks an input up. -/
def input? (script : Script β) (ref : InputRef) : Option InputLink :=
  (script.node? ref.node).bind (·.inputs[ref.index]?)

/-- Looks an output up. -/
def output? (script : Script β) (ref : OutputRef) : Option OutputLink :=
  (script.node? ref.node).bind (·.outputs[ref.index]?)

/-- Looks a value link up. -/
def link? (script : Script β) (ref : ValueLinkRef) : Option ValueLink :=
  (script.node? ref.node).bind (·.links[ref.index]?)

/-- Renames a graph. -/
def setGraphName (script : Script β) (id : GraphId) (name : String) : Script β :=
  script.modifyGraph id ({ · with name := name })

/-- The script seen without its behaviors. -/
def outline (script : Script β) : Script Unit :=
  { script with nodes := script.nodes.map .outline }

/-- Creates a graph nested in `parent`. -/
def addGraph (script : Script β) (parent : GraphId) (name : String) :
    Except ScriptError (GraphId × Script β) :=
  if script.containsGraph parent then
    let id : GraphId := ⟨script.nextGraph⟩
    let nested := script.modifyGraph parent (·.addSubGraph id)
    .ok (id, { nested with
      graphs := nested.graphs ++ [{ id := id, name := name, parent := some parent }]
      nextGraph := script.nextGraph + 1 })
  else .error (.graphNotFound parent)

/-- Walks down from a stack of graphs, each before the graphs nested in it. The first argument
bounds how many ids are looked up. -/
def walk (script : Script β) : Nat → List GraphId → List GraphId
  | 0, _ => []
  | _ + 1, [] => []
  | fuel + 1, id :: stack =>
    match script.graph? id with
    | some graph => id :: walk script fuel (graph.subGraphs ++ stack)
    | none => walk script fuel stack

/-- A graph and all graphs nested in it, each before the graphs nested in it. -/
def subtree (script : Script β) (id : GraphId) : List GraphId :=
  script.walk (script.graphs.length + 1) [id]

/-- Creates a node in a graph. -/
def addNode (script : Script β) (graph : GraphId) (builder : NodeBuilder β) :
    Except ScriptError (NodeId × Script β) :=
  if script.containsGraph graph then
    let id : NodeId := ⟨script.nextNode⟩
    let listed := script.modifyGraph graph (·.addNode id)
    let members := (Keyed.get? script.byType builder.type).getD []
    .ok (id, { listed with
      nodes := script.nodes ++ [builder.build id graph]
      byType := Keyed.insert script.byType builder.type (members ++ [id])
      nextNode := script.nextNode + 1 })
  else .error (.graphNotFound graph)

/-- Takes the connections of the inputs of a removed node off their other ends. The number is the
index of the first of the given inputs. -/
def detachInputs (id : NodeId) : Nat → List InputLink → Script β → Script β
  | _, [], script => script
  | index, link :: rest, script =>
    detachInputs id (index + 1) rest
      (link.connected.foldl (fun s o => s.modifyOutput o (·.detach ⟨id, index⟩)) script)

/-- Takes the connections of the outputs of a removed node off their other ends. The number is the
index of the first of the given outputs. -/
def detachOutputs (id : NodeId) : Nat → List OutputLink → Script β → Script β
  | _, [], script => script
  | index, link :: rest, script =>
    detachOutputs id (index + 1) rest
      (link.connected.foldl (fun s i => s.modifyInput i (·.detach ⟨id, index⟩)) script)

/-- Unbinds a cell from every value link. -/
def unbindEverywhere (script : Script β) (cell : NodeId) : Script β :=
  { script with
    nodes := script.nodes.map fun n => { n with links := n.links.map (·.detach cell) } }

/-- Takes a node out, disconnected on all sides. The removed node is answered without
connections. -/
def removeNode (script : Script β) (id : NodeId) : Except ScriptError (Node β × Script β) :=
  match script.node? id with
  | none => .error (.nodeNotFound id)
  | some node =>
    let without : Script β := { script with nodes := script.nodes.filter (·.id ≠ id) }
    let freed := detachOutputs id 0 node.outputs (detachInputs id 0 node.inputs without)
    let unbound := if node.isValueNode then freed.unbindEverywhere id else freed
    let unlisted := unbound.modifyGraph node.graph (·.removeNode id)
    .ok (node.cleared, { unlisted with
      byType := Keyed.adjust unlisted.byType node.type (·.filter (· ≠ id)) })

/-- Removes nodes one after another. -/
def removeNodes : List NodeId → Script β → Except ScriptError (Script β)
  | [], script => .ok script
  | id :: rest, script => do removeNodes rest (← script.removeNode id).2

/-- Removes graphs with their members, one after another. -/
def removeGraphs : List GraphId → Script β → Except ScriptError (Script β)
  | [], script => .ok script
  | id :: rest, script => do
    let members := (script.graph? id).elim [] (·.nodes)
    let emptied ← removeNodes members script
    removeGraphs rest { emptied with graphs := emptied.graphs.filter (·.id ≠ id) }

/-- Removes a graph, all graphs nested in it and all their nodes, the innermost graphs first. -/
def removeGraph (script : Script β) (id : GraphId) : Except ScriptError (Script β) :=
  if id = rootGraph then .error .cannotRemoveRoot
  else
    match script.graph? id with
    | none => .error (.graphNotFound id)
    | some graph => do
      let rest ← removeGraphs (script.subtree id).reverse script
      match graph.parent with
      | some parent => .ok (rest.modifyGraph parent (·.removeSubGraph id))
      | none => .ok rest

/-- All nodes of a type, in order of creation. -/
def nodesOfType (script : Script β) (type : TypeId) : List (Node β) :=
  ((Keyed.get? script.byType type).getD []).filterMap script.node?

end Script

end FlowScript
