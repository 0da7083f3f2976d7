import FlowScript.Director.Basic
import FlowScript.Proofs.Edit
import FlowScript.Registry

/-!
# Operations in place

An operation of a script answers with an error or with the script that it leads to, so an error
comes with no script at all. A host has a single script, which changes statement by statement, and
an operation that stops half way leaves behind what it did until then. Here the operations that
can stop are written down that way (`InPlace`), and each ends as it is defined: with the same
answer, and with the script that it leads to or else the one that it began with (`settled`).
Removing a graph stops half way if one of its members does not exist (`on_removeGraph`).
-/

namespace FlowScript

variable {β σ α γ : Type}

/-- A program that changes a state as it goes. Where it stops, what it did so far stays done. -/
abbrev InPlace (σ α : Type) := ExceptT ScriptError (StateM σ) α

/-- What an operation comes to in place: its answer with the state that it leads to, or its error
with the state that it began with. -/
def settled (state : σ) : Except ScriptError (α × σ) → Except ScriptError α × σ
  | .ok (answer, next) => (.ok answer, next)
  | .error error => (.error error, state)

namespace InPlace

/-- The answer of a program and the state that it leaves behind. -/
def on (program : InPlace σ α) (state : σ) : Except ScriptError α × σ := program.run.run state

/-- Stops unless a condition holds. -/
def require (condition : Prop) [Decidable condition] (error : ScriptError) : InPlace σ Unit :=
  if condition then pure () else throw error

/-- Stops if a condition holds. -/
def refuse (condition : Prop) [Decidable condition] (error : ScriptError) : InPlace σ Unit :=
  if condition then throw error else pure ()

/-- Stops unless there is something. -/
def demand (found : Option α) (error : ScriptError) : InPlace σ α :=
  match found with
  | some a => pure a
  | none => throw error

/-! ## Running a program -/

section running

variable (state : σ) (error : ScriptError) (rest : α → InPlace σ γ)

@[simp]
theorem on_pure (a : α) : (pure a : InPlace σ α).on state = (.ok a, state) := rfl

@[simp]
theorem on_modifyGet (f : σ → α × σ) :
    (modifyGet f : InPlace σ α).on state = (.ok (f state).1, (f state).2) := rfl

@[simp]
theorem on_get_bind (rest : σ → InPlace σ γ) :
    ((get : InPlace σ σ) >>= rest).on state = (rest state).on state := rfl

@[simp]
theorem on_modify (f : σ → σ) : (modify f : InPlace σ Unit).on state = (.ok (), f state) := rfl

@[simp]
theorem on_modify_bind (f : σ → σ) (rest : Unit → InPlace σ γ) :
    ((modify f : InPlace σ Unit) >>= rest).on state = (rest ()).on (f state) := rfl

theorem on_bind (program : InPlace σ α) : (program >>= rest).on state =
    match program.on state with
    | (.ok a, next) => (rest a).on next
    | (.error error, next) => (.error error, next) := by
  unfold on
  rw [ExceptT.run_bind, StateT.run_bind]
  rcases StateT.run (ExceptT.run program) state with ⟨error | a, next⟩
  · rfl
  · rfl

theorem on_map (f : α → γ) (program : InPlace σ α) :
    (f <$> program).on state = ((program.on state).1.map f, (program.on state).2) := by
  rw [map_eq_pure_bind, on_bind]
  rcases program.on state with ⟨error | a, next⟩
  · rfl
  · rfl

theorem on_bind_of_ok {program : InPlace σ α} {a : α} {next : σ}
    (h : program.on state = (.ok a, next)) : (program >>= rest).on state = (rest a).on next := by
  rw [on_bind, h]

@[simp]
theorem on_require_bind (condition : Prop) [Decidable condition] (rest : Unit → InPlace σ γ) :
    (require condition error >>= rest).on state =
      if condition then (rest ()).on state else (.error error, state) := by
  unfold require
  split
  · rfl
  · rfl

@[simp]
theorem on_refuse_bind (condition : Prop) [Decidable condition] (rest : Unit → InPlace σ γ) :
    (refuse condition error >>= rest).on state =
      if condition then (.error error, state) else (rest ()).on state := by
  unfold refuse
  split
  · rfl
  · rfl

@[simp]
theorem on_demand_bind (found : Option α) : (demand found error >>= rest).on state =
    match found with
    | some a => (rest a).on state
    | none => (.error error, state) := by
  rcases found with _ | a
  · rfl
  · rfl

@[simp]
theorem on_ofExcept_bind (answer : Except ScriptError α) :
    ((MonadExcept.ofExcept answer : InPlace σ α) >>= rest).on state =
      match answer with
      | .ok a => (rest a).on state
      | .error error => (.error error, state) := by
  rcases answer with error | a
  · rfl
  · rfl

end running

/-! ## The operations that can stop -/

/-- Creates a graph nested in `parent`. -/
def addGraph (parent : GraphId) (name : String) : InPlace (Script β) GraphId := do
  require ((← get).containsGraph parent) (.graphNotFound parent)
  let id : GraphId := ⟨(← get).nextGraph⟩
  modify fun script => { script with nextGraph := script.nextGraph + 1 }
  modify (·.modifyGraph parent (·.addSubGraph id))
  modify fun script =>
    { script with graphs := script.graphs ++ [{ id := id, name := name, parent := some parent }] }
  return id

/-- Creates a node in a graph. -/
def addNode (graph : GraphId) (builder : NodeBuilder β) : InPlace (Script β) NodeId := do
  require ((← get).containsGraph graph) (.graphNotFound graph)
  let id : NodeId := ⟨(← get).nextNode⟩
  modify fun script => { script with nextNode := script.nextNode + 1 }
  modify (·.modifyGraph graph (·.addNode id))
  let members := (Keyed.get? (← get).byType builder.type).getD []
  modify fun script =>
    { script with byType := Keyed.insert script.byType builder.type (members ++ [id]) }
  modify fun script => { script with nodes := script.nodes ++ [builder.build id graph] }
  return id

/-- Takes a node out, disconnected on all sides. -/
def removeNode (id : NodeId) : InPlace (Script β) (Node β) := do
  let node ← demand ((← get).node? id) (.nodeNotFound id)
  modify fun script => { script with nodes := script.nodes.filter (·.id ≠ id) }
  modify (Script.detachInputs id 0 node.inputs)
  modify (Script.detachOutputs id 0 node.outputs)
  modify fun script => if node.isValueNode then script.unbindEverywhere id else script
  modify (·.modifyGraph node.graph (·.removeNode id))
  modify fun script =>
    { script with byType := Keyed.adjust script.byType node.type (·.filter (· ≠ id)) }
  return node.cleared

/-- Removes nodes one after another. -/
def removeNodes : List NodeId → InPlace (Script β) Unit
  | [] => return
  | id :: rest => do
    let _ ← removeNode id
    removeNodes rest

/-- Removes graphs with their members, one after another. -/
def removeGraphs : List GraphId → InPlace (Script β) Unit
  | [] => return
  | id :: rest => do
    let members := ((← get).graph? id).elim [] (·.nodes)
    removeNodes members
    modify fun script => { script with graphs := script.graphs.filter (·.id ≠ id) }
    removeGraphs rest

/-- Removes a graph, all graphs nested in it and all their nodes, the innermost graphs first. -/
def removeGraph (id : GraphId) : InPlace (Script β) Unit := do
  refuse (id = rootGraph) .cannotRemoveRoot
  let graph ← demand ((← get).graph? id) (.graphNotFound id)
  let doomed := ((← get).subtree id).reverse
  removeGraphs doomed
  match graph.parent with
  | some parent => modify (·.modifyGraph parent (·.removeSubGraph id))
  | none => return

/-- Connects an output and an input by name. -/
def connectByName (source : NodeId) (output : String) (target : NodeId) (input : String) :
    InPlace (Script β) Bool := do
  let o ← MonadExcept.ofExcept ((← get).outputIndex source output)
  let i ← MonadExcept.ofExcept ((← get).inputIndex target input)
  modifyGet (·.connect ⟨source, o⟩ ⟨target, i⟩)

/-- Binds a value link to a value node. -/
def connectValue (ref : ValueLinkRef) (cell : NodeId) : InPlace (Script β) Unit := do
  let target ← demand ((← get).node? cell) (.nodeNotFound cell)
  let type ← demand target.valueType (.notAValueNode cell)
  let owner ← demand ((← get).node? ref.node) (.nodeNotFound ref.node)
  let link ← demand owner.links[ref.index]?
    (.linkNotFound ref.node ("value[" ++ ref.index.repr ++ "]"))
  refuse (cell ∈ link.bound)
    (.connectionRejected (cell.text ++ " is already bound to " ++ link.name))
  let live := link.bound.any (← get).containsNode
  refuse (!link.allowsMultiple && live) (.multiplicityExceeded ref.node link.name)
  refuse (link.isChecked && link.type ≠ type) (.typeMismatch link.type type)
  modify (·.modifyLink ref (·.attach cell))

/-- Binds a value link by name. -/
def connectValueByName (node : NodeId) (name : String) (cell : NodeId) :
    InPlace (Script β) Unit := do
  let index ← MonadExcept.ofExcept ((← get).linkIndex node name)
  connectValue ⟨node, index⟩ cell

/-- Creates a node of a registered type in a graph. -/
def instantiate (registry : Registry β) (graph : GraphId) (type : TypeId)
    (properties : PropertySet) : InPlace (Script β) NodeId := do
  let builder ← MonadExcept.ofExcept (registry.create type properties)
  addNode graph builder

/-- Adds a factory for a type that has none yet. -/
def register (type : TypeId) (factory : Factory β) : InPlace (Registry β) Unit := do
  refuse (Keyed.contains (← get).factories type) (.duplicateNodeType type)
  modify fun registry => ⟨Keyed.insert registry.factories type factory⟩

/-- Injects an activation of a node that exists. -/
def enqueue (activation : Activation) : InPlace (Director β) Unit := do
  require ((← get).script.containsNode activation.node) (.nodeNotFound activation.node)
  modify (·.inject [activation])

/-- Injects the firing of a named input of a node in a graph. -/
def triggerInput (graph : GraphId) (node : NodeId) (input : String) :
    InPlace (Director β) Unit := do
  refuse (!(← get).script.containsGraph graph) (.graphNotFound graph)
  let target ← demand (((← get).script.node? node).filter (·.graph = graph)) (.nodeNotFound node)
  let index ← demand (target.inputIndex? input) (.linkNotFound node input)
  modify (·.inject [{ node := node, input := some index }])

/-! ## Each ends as it is defined -/

section agreement

variable (script : Script β)

theorem on_addGraph (parent : GraphId) (name : String) :
    (addGraph parent name).on script = settled script (script.addGraph parent name) := by
  unfold Script.addGraph
  simp only [addGraph, on_get_bind, on_require_bind, on_modify_bind, on_pure]
  split
  · rfl
  · rfl

theorem on_addNode (graph : GraphId) (builder : NodeBuilder β) :
    (addNode graph builder).on script = settled script (script.addNode graph builder) := by
  unfold Script.addNode
  simp only [addNode, on_get_bind, on_require_bind, on_modify_bind, on_pure]
  split
  · rfl
  · rfl

theorem on_removeNode (id : NodeId) :
    (removeNode id).on script = settled script (script.removeNode id) := by
  unfold Script.removeNode
  simp only [removeNode, on_get_bind, on_demand_bind, on_modify_bind, on_pure]
  split
  · rename_i node hn
    simp only [hn]
    rfl
  · rename_i hn
    simp only [hn]
    rfl

theorem on_removeNodes_of_ok : ∀ (ids : List NodeId) {script rest : Script β},
    Script.removeNodes ids script = .ok rest → (removeNodes ids).on script = (.ok (), rest)
  | [], script, rest, h => by
    rw [Script.removeNodes] at h
    obtain rfl := Except.ok.inj h
    rfl
  | id :: ids, script, rest, h => by
    rw [Script.removeNodes] at h
    obtain ⟨removed, hr, h⟩ := bind_eq_ok.1 h
    have hon := on_removeNode script id
    rw [hr] at hon
    rw [removeNodes, on_bind_of_ok script _ hon]
    exact on_removeNodes_of_ok ids h

theorem on_removeGraphs_of_ok : ∀ (ids : List GraphId) {script rest : Script β},
    Script.removeGraphs ids script = .ok rest → (removeGraphs ids).on script = (.ok (), rest)
  | [], script, rest, h => by
    rw [Script.removeGraphs] at h
    obtain rfl := Except.ok.inj h
    rfl
  | id :: ids, script, rest, h => by
    rw [Script.removeGraphs] at h
    obtain ⟨emptied, he, h⟩ := bind_eq_ok.1 h
    have hon := on_removeNodes_of_ok _ he
    rw [removeGraphs, on_get_bind, on_bind_of_ok script _ hon, on_modify_bind]
    exact on_removeGraphs_of_ok ids h

/-- Removing a graph ends as it is defined if the graphs within it can be removed one by one. -/
theorem on_removeGraph {id : GraphId}
    (h : ∃ rest, Script.removeGraphs (script.subtree id).reverse script = .ok rest) :
    (removeGraph id).on script = settled script ((script.removeGraph id).map ((), ·)) := by
  obtain ⟨rest, hrest⟩ := h
  unfold Script.removeGraph
  rw [removeGraph, on_refuse_bind]
  split
  · rfl
  rw [on_get_bind, on_demand_bind]
  rcases script.graph? id with _ | graph
  · rfl
  simp only [on_get_bind, on_bind_of_ok script _ (on_removeGraphs_of_ok _ hrest), hrest]
  rcases graph.parent with _ | parent
  · rfl
  · rfl

/-- Where a graph lists a node that does not exist, its removal stops with the nodes before it
gone. -/
example :
    let graphs : List Graph := [{ id := rootGraph, name := "root", parent := none },
      { id := ⟨1⟩, name := "torn", parent := some rootGraph, nodes := [⟨0⟩, ⟨7⟩] }]
    let node : Node Unit := (NodeBuilder.action startEventType ()).build ⟨0⟩ ⟨1⟩
    let torn : Script Unit :=
      { graphs, nodes := [node], byType := [], nextGraph := 2, nextNode := 1 }
    ((removeGraph ⟨1⟩).on torn).1 = .error (.nodeNotFound ⟨7⟩)
      ∧ ((removeGraph ⟨1⟩).on torn).2.nodes = [] :=
  ⟨rfl, rfl⟩

theorem on_connectByName (source : NodeId) (output : String) (target : NodeId) (input : String) :
    (connectByName source output target input).on script =
      settled script (script.connectByName source output target input) := by
  unfold Script.connectByName
  simp only [connectByName, on_get_bind, on_ofExcept_bind, on_modifyGet]
  rcases script.outputIndex source output with error | o
  · rfl
  rcases script.inputIndex target input with error | i
  · rfl
  · rfl

theorem on_connectValue (ref : ValueLinkRef) (cell : NodeId) : (connectValue ref cell).on script =
    settled script ((script.connectValue ref cell).map ((), ·)) := by
  unfold Script.connectValue
  rw [connectValue, on_get_bind, on_demand_bind]
  rcases script.node? cell with _ | target
  · rfl
  simp only [on_demand_bind]
  rcases target.valueType with _ | type
  · rfl
  simp only [on_get_bind, on_demand_bind]
  rcases script.node? ref.node with _ | owner
  · rfl
  simp only
  rcases owner.links[ref.index]? with _ | link
  · rfl
  simp only [on_get_bind, on_refuse_bind, on_modify]
  split
  · rfl
  split
  · rfl
  split
  · rfl
  · rfl

theorem on_connectValueByName (node : NodeId) (name : String) (cell : NodeId) :
    (connectValueByName node name cell).on script =
      settled script ((script.connectValueByName node name cell).map ((), ·)) := by
  unfold Script.connectValueByName
  simp only [connectValueByName, on_get_bind, on_ofExcept_bind]
  rcases script.linkIndex node name with error | index
  · rfl
  · exact on_connectValue script ⟨node, index⟩ cell

theorem on_instantiate (registry : Registry β) (graph : GraphId) (type : TypeId)
    (properties : PropertySet) : (instantiate registry graph type properties).on script =
      settled script (registry.instantiate script graph type properties) := by
  unfold Registry.instantiate
  simp only [instantiate, on_ofExcept_bind]
  rcases registry.create type properties with error | builder
  · rfl
  · exact on_addNode script graph builder

end agreement

theorem on_register (registry : Registry β) (type : TypeId) (factory : Factory β) :
    (register type factory).on registry =
      settled registry ((registry.register type factory).map ((), ·)) := by
  unfold Registry.register
  simp only [register, on_get_bind, on_refuse_bind, on_modify]
  split
  · rfl
  · rfl

theorem on_enqueue (director : Director β) (activation : Activation) :
    (enqueue activation).on director =
      settled director ((director.enqueue activation).map ((), ·)) := by
  unfold Director.enqueue
  simp only [enqueue, on_get_bind, on_require_bind, on_modify]
  split
  · rfl
  · rfl

theorem on_triggerInput (director : Director β) (graph : GraphId) (node : NodeId)
    (input : String) : (triggerInput graph node input).on director =
      settled director ((director.triggerInput graph node input).map ((), ·)) := by
  unfold Director.triggerInput
  rw [triggerInput, on_get_bind, on_refuse_bind]
  split
  · rfl
  rw [on_get_bind, on_demand_bind]
  rcases hn : (director.script.node? node).filter (·.graph = graph) with _ | target
  · simp only [hn]
    rfl
  simp only [hn, on_demand_bind, on_modify]
  rcases target.inputIndex? input with _ | index
  · rfl
  · rfl

end InPlace

end FlowScript
