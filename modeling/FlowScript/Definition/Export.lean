import FlowScript.Definition.Build

/-!
# Describing a script as a definition

Nodes without an authored key are named after their id. The defaults of value links are written as
properties, so that building the definition again sets them.
-/

namespace FlowScript

/-- The names under which nodes are described. -/
abbrev Names := Keyed NodeId String

namespace Names

/-- The names that authored keys give; of two keys of one node the later one counts. -/
def ofKeys (keys : Keys) : Names := Keyed.ofPairs (keys.map fun (key, id) => (id, key))

/-- The n-th name to try for a node without a key. -/
def candidate (base : String) : Nat → String
  | 0 => base
  | n + 1 => base ++ "_" ++ (n + 1).repr

/-- The first free candidate from the n-th on; the first argument bounds how many are tried. -/
def fresh (names : Names) (base : String) : Nat → Nat → String
  | 0, n => candidate base n
  | fuel + 1, n =>
    if candidate base n ∈ Keyed.values names then fresh names base fuel (n + 1)
    else candidate base n

/-- Names a node that has no name yet. -/
def add (names : Names) (id : NodeId) : Names :=
  if Keyed.contains names id then names
  else Keyed.insert names id (names.fresh id.text names.length 0)

/-- A name for every node of a script. -/
def ofScript {β : Type} (script : Script β) (keys : Keys) : Names :=
  (script.nodes.map (·.id)).foldl add (ofKeys keys)

/-- The name of a node. -/
def get (names : Names) (id : NodeId) : String := (Keyed.get? names id).getD id.text

end Names

namespace Script

variable {β : Type}

/-- Describes a node. -/
def nodeDef (names : Names) (node : Node β) : NodeDef where
  key := names.get node.id
  name := node.type.name
  category := node.type.category
  properties := Keyed.insertAll node.properties (node.links.map fun l => (l.name, l.default))

/-- Describes the connections of a node's outputs. -/
def linkDefs (script : Script β) (names : Names) (node : Node β) : List LinkDef :=
  node.outputs.flatMap fun output => output.connected.filterMap fun ref =>
    (script.input? ref).map fun input =>
      ⟨names.get node.id, output.name, names.get ref.node, input.name⟩

/-- Describes the bindings of a node's value links. -/
def bindingDefs (script : Script β) (names : Names) (node : Node β) : List BindingDef :=
  node.links.flatMap fun link => (link.bound.filter script.containsNode).map fun cell =>
    ⟨names.get node.id, link.name, names.get cell⟩

/-- Describes a graph. The first argument bounds how deep graphs are nested. -/
def graphDef (script : Script β) (names : Names) : Nat → GraphId → GraphDef
  | 0, _ => { name := "" }
  | fuel + 1, id =>
    match script.graph? id with
    | none => { name := "" }
    | some graph =>
      let members := graph.nodes.filterMap script.node?
      { name := graph.name
        nodes := members.map (nodeDef names)
        links := members.flatMap (script.linkDefs names)
        bindings := members.flatMap (script.bindingDefs names)
        subGraphs := graph.subGraphs.map (script.graphDef names fuel) }

/-- Describes the whole script, with the given keys as names. -/
def definition (script : Script β) (keys : Keys) : GraphDef :=
  script.graphDef (.ofScript script keys) (script.graphs.length + 1) rootGraph

end Script

end FlowScript
