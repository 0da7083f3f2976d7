import FlowScript.Behavior.Turn

/-!
# Directors

A director owns a script and steps it once per frame of the host. Between ticks the host may edit
the script and inject activations, which join the next wave behind those carried over.
-/

namespace FlowScript

/-- What a director is doing. -/
inductive Phase where
  /-- Waiting for the next tick. -/
  | idle
  /-- Inside a tick. -/
  | stepping
  /-- Broken; every further tick is refused. -/
  | faulted
deriving DecidableEq, Inhabited

/-- A script with its clock, its queues and its watchers' log. -/
structure Director (β : Type) where
  script : Script β
  config : Config := {}
  clock : Clock := {}
  phase : Phase := .idle
  /-- Why the director is broken. -/
  fault : Option String := none
  /-- Activations carried over from the last tick. -/
  nextWave : List Activation := []
  /-- Activations injected by the host since the last tick. -/
  injected : List Activation := []
  bridge : Bridge := .silent
  trace : Option Trace := none
  /-- What the director's watchers were told, the latest first. -/
  told : List Observation := []
  /-- What behaviors noted down. -/
  notes : List Note := []

namespace Director

variable {β : Type}

/-- Replaces the settings and starts a new trace if they ask for one. -/
def withConfig (director : Director β) (config : Config) : Director β :=
  { director with
    config := config
    trace := if config.recordTrace then some { capacity := config.traceCapacity } else none }

/-- How many activations wait for the next tick. -/
def pending (director : Director β) : Nat :=
  director.nextWave.length + director.injected.length

/-- Injects activations. -/
def inject (director : Director β) (activations : List Activation) : Director β :=
  { director with injected := director.injected ++ activations }

/-- Injects an activation of a node that exists. -/
def enqueue (director : Director β) (activation : Activation) :
    Except ScriptError (Director β) :=
  if director.script.containsNode activation.node then .ok (director.inject [activation])
  else .error (.nodeNotFound activation.node)

/-- Injects the firing of a named input of a node in a graph. -/
def triggerInput (director : Director β) (graph : GraphId) (node : NodeId) (input : String) :
    Except ScriptError (Director β) :=
  if !director.script.containsGraph graph then .error (.graphNotFound graph)
  else
    match (director.script.node? node).filter (·.graph = graph) with
    | none => .error (.nodeNotFound node)
    | some target =>
      match target.inputIndex? input with
      | none => .error (.linkNotFound node input)
      | some index => .ok (director.inject [{ node := node, input := some index }])

/-- Injects the start of each of the given events and says how many they are. -/
def triggerAll (director : Director β) (events : List NodeId) : Nat × Director β :=
  (events.length, director.inject (events.map fun id => { node := id, input := none }))

/-- Injects the start of every event of a name, looked up from the root graph. -/
def triggerEvent (director : Director β) (name : String) (scope : Scope) : Nat × Director β :=
  director.triggerAll (director.script.eventsNamed name scope rootGraph)

/-- Injects the start of every event node of a type. -/
def triggerType (director : Director β) (type : TypeId) : Nat × Director β :=
  director.triggerAll (((director.script.nodesOfType type).filter (·.kind == .event)).map (·.id))

/-- Injects the start of every start event. -/
def start (director : Director β) : Nat × Director β := director.triggerType startEventType

/-- Tells the watchers something. -/
def observe (director : Director β) (observation : Observation) : Director β :=
  { director with told := observation :: director.told }

/-- What the watchers were told, in order. -/
def seen (director : Director β) : List Observation := director.told.reverse

theorem seen_observe (director : Director β) (observation : Observation) :
    (director.observe observation).seen = director.seen ++ [observation] :=
  List.reverse_cons

/-- Records a call in the trace and tells the watchers. -/
def observeCall (director : Director β) (record : Record) : Director β :=
  { director.observe (.called record) with trace := director.trace.map (·.add record) }

/-- Breaks the director for good. -/
def fail (director : Director β) (reason : String) : Director β :=
  { director with phase := .faulted, fault := some reason }

end Director

end FlowScript
