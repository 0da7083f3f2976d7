import FlowScript.Script.Control

/-!
# Values through links

A value link that is bound reads and writes the cells of its value nodes; unbound it reads and
writes its default. Cells keep their declared type.
-/

namespace FlowScript.Script

variable {β : Type}

/-- Binds a value link to a value node. Refused when the pair is bound already, when the link takes
one binding and has it, and when the link checks types and the cell's type differs from the
default's. -/
def connectValue (script : Script β) (ref : ValueLinkRef) (cell : NodeId) :
    Except ScriptError (Script β) :=
  match script.node? cell with
  | none => .error (.nodeNotFound cell)
  | some target =>
    match target.valueType with
    | none => .error (.notAValueNode cell)
    | some type =>
      match script.node? ref.node with
      | none => .error (.nodeNotFound ref.node)
      | some owner =>
        match owner.links[ref.index]? with
        | none => .error (.linkNotFound ref.node ("value[" ++ ref.index.repr ++ "]"))
        | some link =>
          if cell ∈ link.bound then
            .error (.connectionRejected (cell.text ++ " is already bound to " ++ link.name))
          else if !link.allowsMultiple && link.bound.any script.containsNode then
            .error (.multiplicityExceeded ref.node link.name)
          else if link.isChecked && link.type ≠ type then
            .error (.typeMismatch link.type type)
          else .ok (script.modifyLink ref (·.attach cell))

/-- Binds a value link by name. -/
def connectValueByName (script : Script β) (node : NodeId) (name : String) (cell : NodeId) :
    Except ScriptError (Script β) := do
  script.connectValue ⟨node, ← script.linkIndex node name⟩ cell

/-- Unbinds one cell, or every cell, and says how many bindings were taken off. -/
def disconnectValue (script : Script β) (ref : ValueLinkRef) (cell : Option NodeId) :
    Nat × Script β :=
  match script.link? ref with
  | none => (0, script)
  | some link =>
    match cell with
    | some id => (if id ∈ link.bound then 1 else 0, script.modifyLink ref (·.detach id))
    | none => (link.bound.length, script.modifyLink ref .clear)

/-- Whether an id names a value node. -/
def isCell (script : Script β) (id : NodeId) : Bool := (script.node? id).any (·.isValueNode)

/-- The value nodes bound to a link. -/
def liveBindings (script : Script β) (ref : ValueLinkRef) : List NodeId :=
  (script.link? ref).elim [] (·.bound.filter script.isCell)

/-- How many slots of a link can be read. -/
def slotCount (script : Script β) (ref : ValueLinkRef) : Nat :=
  max (script.liveBindings ref).length 1

/-- Reads a slot of a link: the cell bound there, or the default as slot zero of an unbound link. -/
def linkValue? (script : Script β) (ref : ValueLinkRef) (slot : Nat) : Option Property :=
  match script.liveBindings ref with
  | [] => if slot = 0 then (script.link? ref).map (·.default) else none
  | cells => cells[slot]?.bind script.node? |>.bind (·.value?)

/-- Writes a cell, if the value fits its type. -/
def setCell (script : Script β) (cell : NodeId) (value : Property) : Bool × Script β :=
  match script.node? cell with
  | none => (false, script)
  | some node =>
    ((node.setValue value).1, script.modifyNode cell fun n => (n.setValue value).2)

/-- Writes a slot of a link: the cell bound there, or the default as slot zero of an unbound
link. -/
def setLinkValue (script : Script β) (ref : ValueLinkRef) (slot : Nat) (value : Property) :
    Bool × Script β :=
  match script.liveBindings ref with
  | [] =>
    if slot = 0 ∧ (script.link? ref).isSome then
      (true, script.modifyLink ref ({ · with default := value }))
    else (false, script)
  | cells =>
    match cells[slot]? with
    | some cell => script.setCell cell value
    | none => (false, script)

/-- Reads a named property of a node: the first slot of the value link of this name, or else the
plain property. -/
def property? (script : Script β) (node : NodeId) (name : String) : Option Property :=
  match script.node? node with
  | none => none
  | some owner =>
    match owner.linkIndex? name with
    | some index => script.linkValue? ⟨node, index⟩ 0
    | none => Keyed.get? owner.properties name

/-- Writes the first slots of a link; true when any of them took the value. -/
def setSlots (ref : ValueLinkRef) (value : Property) : Nat → Script β → Bool × Script β
  | 0, script => (false, script)
  | slots + 1, script =>
    let before := setSlots ref value slots script
    let last := before.2.setLinkValue ref slots value
    (before.1 || last.1, last.2)

/-- Writes a named property of a node: every slot of the value link of this name, or else the
node's own property. -/
def setProperty (script : Script β) (node : NodeId) (name : String) (value : Property) :
    Bool × Script β :=
  match script.node? node with
  | none => (false, script)
  | some owner =>
    match owner.linkIndex? name with
    | some index => setSlots ⟨node, index⟩ value (script.slotCount ⟨node, index⟩) script
    | none =>
      ((owner.setLocalProperty name value).1,
        script.modifyNode node fun n => (n.setLocalProperty name value).2)

/-- The nodes of a type whose named property equals a value, in order of creation. With a graph
given, only that graph and the graphs nested in it are searched. -/
def find (script : Script β) (type : TypeId) (name : String) (value : Property)
    (inside : Option GraphId) : List NodeId :=
  let scope := inside.map script.subtree
  (((script.nodesOfType type).filter fun node => scope.all (node.graph ∈ ·)).filter fun node =>
    (script.property? node.id name).any (·.same value)).map (·.id)

end FlowScript.Script
