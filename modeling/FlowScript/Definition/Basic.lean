import FlowScript.Property.Basic

/-!
# Definitions of scripts

A definition is a tree of graphs in which nodes have keys that are unique in the whole tree, so that
links and bindings may cross from one graph to another.
-/

namespace FlowScript

/-- A node of a registered type. A property that has the name of a value link sets its default. -/
structure NodeDef where
  key : String
  name : String
  category : String
  properties : PropertySet := []
deriving Inhabited

/-- The registered type of a node. -/
def NodeDef.type (node : NodeDef) : TypeId := ⟨node.name, node.category⟩

/-- A control link. -/
structure LinkDef where
  source : String
  output : String
  target : String
  input : String
deriving DecidableEq, Inhabited

/-- A value link and the cell that it is bound to. -/
structure BindingDef where
  node : String
  link : String
  cell : String
deriving DecidableEq, Inhabited

/-- A graph and the graphs nested in it. -/
structure GraphDef where
  name : String
  nodes : List NodeDef := []
  links : List LinkDef := []
  bindings : List BindingDef := []
  subGraphs : List GraphDef := []
deriving Inhabited

/-- Equality of nodes, with properties compared as groups are. -/
def NodeDef.same (a b : NodeDef) : Bool :=
  a.key == b.key && a.name == b.name && a.category == b.category &&
    (Property.group a.properties).same (.group b.properties)

/-- Equality of lists by an equality of their items. -/
def sameList {α : Type} (same : α → α → Bool) : List α → List α → Bool
  | [], [] => true
  | a :: as, b :: bs => same a b && sameList same as bs
  | _, _ => false

namespace GraphDef

mutual

/-- Equality of definitions. -/
def same : GraphDef → GraphDef → Bool
  | ⟨name, nodes, links, bindings, subs⟩, other =>
    name == other.name && sameList NodeDef.same nodes other.nodes && links == other.links &&
      bindings == other.bindings && sameAll subs other.subGraphs

/-- Equality of lists of definitions. -/
def sameAll : List GraphDef → List GraphDef → Bool
  | [], [] => true
  | a :: as, b :: bs => same a b && sameAll as bs
  | _, _ => false

end

mutual

/-- The graphs of a tree, each before the graphs nested in it. -/
def preorder : GraphDef → List GraphDef
  | ⟨name, nodes, links, bindings, subs⟩ =>
    ⟨name, nodes, links, bindings, subs⟩ :: preorderAll subs

/-- The graphs of several trees, one tree after another. -/
def preorderAll : List GraphDef → List GraphDef
  | [] => []
  | graph :: rest => preorder graph ++ preorderAll rest

end

end GraphDef

end FlowScript
