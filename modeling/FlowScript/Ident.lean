/-!
# Names of nodes, graphs, actors and node types

Ids are handed out by a script in increasing order and are never used twice, so an id that
outlives its owner resolves to nothing.
-/

namespace FlowScript

/-- A node of a script. -/
structure NodeId where
  raw : Nat
deriving DecidableEq, Inhabited

/-- A graph of a script. -/
structure GraphId where
  raw : Nat
deriving DecidableEq, Inhabited

/-- An actor of the host's simulation. -/
structure ActorId where
  raw : Nat
deriving DecidableEq, Inhabited

/-- The kind a node was created as: a name within a category. -/
structure TypeId where
  name : String
  category : String
deriving DecidableEq, Inhabited

/-- The written form of a node id. -/
def NodeId.text (id : NodeId) : String := "node:" ++ id.raw.repr

/-- The written form of a graph id. -/
def GraphId.text (id : GraphId) : String := "graph:" ++ id.raw.repr

/-- The written form of an actor id. -/
def ActorId.text (id : ActorId) : String := "actor:" ++ id.raw.repr

/-- The written form of a node type puts the category first. -/
def TypeId.text (type : TypeId) : String := type.category ++ "/" ++ type.name

/-- Whether a type has the given name and category. -/
def TypeId.is (type : TypeId) (name category : String) : Bool :=
  type.name == name && type.category == category

end FlowScript
