import FlowScript.Link

/-!
# Nodes

A node is a vertex of a graph: links, properties and one behavior. The behavior's type is a
parameter, so that everything about links and values holds for every kind of behavior.
-/

namespace FlowScript

/-- What a node can do. -/
inductive NodeKind where
  /-- Works when one of its inputs fires. -/
  | action
  /-- Is fired by the host or by name. -/
  | event
  /-- Is a shared cell and is never called. -/
  | value
deriving DecidableEq, Inhabited

/-- The property that holds the cell of a value node. -/
def cellName : String := "Value"

/-- A vertex of a graph. The behavior is absent while it runs. -/
structure Node (β : Type) where
  id : NodeId
  graph : GraphId
  type : TypeId
  kind : NodeKind
  valueType : Option PropertyType := none
  inputs : List InputLink := []
  outputs : List OutputLink := []
  links : List ValueLink := []
  properties : PropertySet := []
  behavior : Option β

/-- The position of the first element that passes a test. -/
def position? {α : Type} (p : α → Bool) : List α → Option Nat
  | [] => none
  | a :: l => if p a then some 0 else (position? p l).map (· + 1)

namespace ValueLink

/-- Replaces the default of the first link with the given name; `none` when there is none. -/
def setDefault? : List ValueLink → String → Property → Option (List ValueLink)
  | [], _, _ => none
  | link :: rest, name, value =>
    if link.name = name then some ({ link with default := value } :: rest)
    else (setDefault? rest name value).map (link :: ·)

end ValueLink

namespace Node

variable {β : Type}

/-- Whether the node is a shared cell. -/
def isValueNode (node : Node β) : Bool := node.kind == .value

/-- The index of the first input of a name. -/
def inputIndex? (node : Node β) (name : String) : Option Nat :=
  position? (fun link : InputLink => link.name == name) node.inputs

/-- The index of the first output of a name. -/
def outputIndex? (node : Node β) (name : String) : Option Nat :=
  position? (fun link : OutputLink => link.name == name) node.outputs

/-- The index of the first value link of a name. -/
def linkIndex? (node : Node β) (name : String) : Option Nat :=
  position? (fun link : ValueLink => link.name == name) node.links

/-- The default of the value link of this name, or else the plain property. Bindings are not
followed. -/
def localProperty? (node : Node β) (name : String) : Option Property :=
  match node.links.find? (·.name == name) with
  | some link => some link.default
  | none => Keyed.get? node.properties name

/-- The cell of a value node. -/
def value? (node : Node β) : Option Property :=
  if node.isValueNode then Keyed.get? node.properties cellName else none

/-- Stores a value in the cell, converted to the declared type. Nodes without a declared type and
values that do not fit are refused. -/
def setValue (node : Node β) (value : Property) : Bool × Node β :=
  match node.valueType.bind value.coerce with
  | some stored =>
    (true, { node with properties := Keyed.insert node.properties cellName stored })
  | none => (false, node)

/-- Sets the default of the value link of this name, or else the plain property. The cell of a
value node is written through `setValue`. -/
def setLocalProperty (node : Node β) (name : String) (value : Property) : Bool × Node β :=
  if node.isValueNode && name == cellName then node.setValue value
  else
    match ValueLink.setDefault? node.links name value with
    | some links => (true, { node with links := links })
    | none => (true, { node with properties := Keyed.insert node.properties name value })

/-- Changes one input. -/
def modifyInput (node : Node β) (index : Nat) (f : InputLink → InputLink) : Node β :=
  { node with inputs := node.inputs.modify index f }

/-- Changes one output. -/
def modifyOutput (node : Node β) (index : Nat) (f : OutputLink → OutputLink) : Node β :=
  { node with outputs := node.outputs.modify index f }

/-- Changes one value link. -/
def modifyLink (node : Node β) (index : Nat) (f : ValueLink → ValueLink) : Node β :=
  { node with links := node.links.modify index f }

/-- Adds one pulse to an output; `false` when there is no such output. -/
def activateOutput (node : Node β) (index : Nat) : Bool × Node β :=
  if index < node.outputs.length then (true, node.modifyOutput index .activate)
  else (false, node)

/-- The node with every connection and binding of its own links taken off. -/
def cleared (node : Node β) : Node β :=
  { node with
    inputs := node.inputs.map .clear
    outputs := node.outputs.map .clear
    links := node.links.map .clear }

/-- The node seen without its behavior. -/
def outline (node : Node β) : Node Unit :=
  { node with behavior := node.behavior.map fun _ => () }

end Node

/-- A node before it is placed in a graph. -/
structure NodeBuilder (β : Type) where
  type : TypeId
  kind : NodeKind
  valueType : Option PropertyType := none
  inputs : List InputLink := []
  outputs : List OutputLink := []
  links : List ValueLink := []
  properties : PropertySet := []
  behavior : β

namespace NodeBuilder

variable {β : Type}

/-- An action node. -/
def action (type : TypeId) (behavior : β) : NodeBuilder β :=
  { type := type, kind := .action, behavior := behavior }

/-- An event node. -/
def event (type : TypeId) (behavior : β) : NodeBuilder β :=
  { type := type, kind := .event, behavior := behavior }

/-- A shared cell. The first value declares its type; the behavior is never called. -/
def value (type : TypeId) (initial : Property) (behavior : β) : NodeBuilder β :=
  { type := type
    kind := .value
    valueType := some initial.type
    properties := [(cellName, initial)]
    behavior := behavior }

/-- Appends an input. -/
def input (builder : NodeBuilder β) (name : String) : NodeBuilder β :=
  { builder with inputs := builder.inputs ++ [{ name := name }] }

/-- Appends an output. -/
def output (builder : NodeBuilder β) (name : String) : NodeBuilder β :=
  { builder with outputs := builder.outputs ++ [{ name := name }] }

/-- Appends a value link. -/
def link (builder : NodeBuilder β) (link : ValueLink) : NodeBuilder β :=
  { builder with links := builder.links ++ [link] }

/-- Sets a plain property. -/
def property (builder : NodeBuilder β) (name : String) (value : Property) : NodeBuilder β :=
  { builder with properties := Keyed.insert builder.properties name value }

/-- Applies one authored value: it goes to the cell of a value node if it fits, else to the default
of the value link of its name, else to a plain property. -/
def override (builder : NodeBuilder β) (name : String) (value : Property) :
    Except ScriptError (NodeBuilder β) :=
  match builder.valueType, name == cellName with
  | some declared, true =>
    match value.coerce declared with
    | some cell => .ok (builder.property name cell)
    | none => .error (.typeMismatch declared value.type)
  | _, _ =>
    match ValueLink.setDefault? builder.links name value with
    | some links => .ok { builder with links := links }
    | none => .ok (builder.property name value)

/-- Applies authored values one after another, up to the first that does not fit. -/
def withOverrides (builder : NodeBuilder β) : PropertySet → Except ScriptError (NodeBuilder β)
  | [] => .ok builder
  | (name, value) :: rest => do (← builder.override name value).withOverrides rest

/-- The node that the description becomes. -/
def build (builder : NodeBuilder β) (id : NodeId) (graph : GraphId) : Node β where
  id := id
  graph := graph
  type := builder.type
  kind := builder.kind
  valueType := builder.valueType
  inputs := builder.inputs
  outputs := builder.outputs
  links := builder.links
  properties := builder.properties
  behavior := some builder.behavior

/-- The same description with another type of behavior. -/
def map {γ : Type} (f : β → γ) (builder : NodeBuilder β) : NodeBuilder γ :=
  { builder with behavior := f builder.behavior }

end NodeBuilder

end FlowScript
