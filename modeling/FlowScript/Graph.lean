import FlowScript.Ident

/-!
# Graphs

A graph lists its member nodes and the graphs nested in it. The nodes themselves belong to the
script.
-/

namespace FlowScript

/-- A graph of a script. Only the root graph has no parent. -/
structure Graph where
  id : GraphId
  name : String
  parent : Option GraphId
  subGraphs : List GraphId := []
  nodes : List NodeId := []
deriving DecidableEq, Inhabited

namespace Graph

/-- Whether the graph has no parent. -/
def isRoot (graph : Graph) : Bool := graph.parent.isNone

/-- Lists a member after the others. -/
def addNode (graph : Graph) (node : NodeId) : Graph :=
  { graph with nodes := graph.nodes ++ [node] }

/-- Takes a member off the list. -/
def removeNode (graph : Graph) (node : NodeId) : Graph :=
  { graph with nodes := graph.nodes.filter (· ≠ node) }

/-- Lists a nested graph after the others. -/
def addSubGraph (graph : Graph) (sub : GraphId) : Graph :=
  { graph with subGraphs := graph.subGraphs ++ [sub] }

/-- Takes a nested graph off the list. -/
def removeSubGraph (graph : Graph) (sub : GraphId) : Graph :=
  { graph with subGraphs := graph.subGraphs.filter (· ≠ sub) }

end Graph

end FlowScript
