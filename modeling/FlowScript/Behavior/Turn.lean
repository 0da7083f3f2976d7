import FlowScript.Behavior.Program
import FlowScript.Clock
import FlowScript.Event

/-!
# The engine's answers

A turn is one call of a behavior. It holds the script and the bridge, which the call may change for
good, and collects what the call schedules, which counts only if the call succeeds.
-/

namespace FlowScript

/-- The state of one call. -/
structure Turn (β : Type) where
  script : Script β
  activation : Activation
  graph : GraphId
  clock : Clock
  /-- Where events are looked up unless the behavior says otherwise. -/
  scope : Scope
  bridge : Bridge
  /-- Frames in the order in which they were opened. -/
  frames : List (List Activation) := []
  /-- Events to start with the next wave. -/
  signalled : List NodeId := []
  notes : List Note := []

/-- The calls that one pulse of an output leads to. -/
def OutputLink.targets (link : OutputLink) : List Activation :=
  link.connected.map fun input => { node := input.node, input := some input.index }

namespace Turn

variable {β : Type}

/-- The node that is called. -/
def node? (turn : Turn β) : Option (Node β) := turn.script.node? turn.activation.node

/-- The value link of a name at the node that is called. -/
def link? (turn : Turn β) (name : String) : Option ValueLinkRef :=
  (turn.node?.bind (·.linkIndex? name)).map fun index => ⟨turn.activation.node, index⟩

/-- Changes the script and answers what the change answered. -/
def edit {α : Type} (turn : Turn β) (result : α × Script β) : α × Turn β :=
  (result.1, { turn with script := result.2 })

/-- Opens a frame. -/
def push (turn : Turn β) (frame : List Activation) : Turn β :=
  { turn with frames := turn.frames ++ [frame] }

/-- Pulses an output of the node that is called. -/
def pulse (turn : Turn β) (output : Nat) : Bool × Turn β :=
  match turn.node? with
  | none => (false, turn)
  | some node =>
    ((node.activateOutput output).1,
      { turn with
        script := turn.script.modifyNode turn.activation.node fun n => (n.activateOutput output).2 })

/-- Opens a frame for everything connected to an output, unless nothing is. -/
def pushTargets (turn : Turn β) (output : Nat) : Turn β :=
  match ((turn.node?.bind (·.outputs[output]?)).elim [] (·.targets)) with
  | [] => turn
  | frame => turn.push frame

/-- Looks events up and has them started with the next wave. -/
def signal (turn : Turn β) (event : String) (scope : Option Scope) : Nat × Turn β :=
  let found := turn.script.eventsNamed event (scope.getD turn.scope) turn.graph
  (found.length, { turn with signalled := turn.signalled ++ found })

/-- Answers one request. -/
def answer (turn : Turn β) : (r : Request) → r.Answer × Turn β
  | .node => (turn.activation.node, turn)
  | .graph => (turn.graph, turn)
  | .input => (turn.activation.input, turn)
  | .first => (turn.activation.first, turn)
  | .tick => (turn.clock.tick, turn)
  | .simDelta => (turn.clock.simDelta, turn)
  | .realDelta => (turn.clock.realDelta, turn)
  | .script => (turn.script.outline, turn)
  | .inputName =>
    (turn.activation.input.bind fun i => (turn.node?.bind (·.inputs[i]?)).map (·.name), turn)
  | .inputCount => (turn.node?.elim 0 (·.inputs.length), turn)
  | .outputCount => (turn.node?.elim 0 (·.outputs.length), turn)
  | .outputIndex name => (turn.node?.bind (·.outputIndex? name), turn)
  | .activeCount name =>
    ((turn.node?.bind fun n => (n.outputIndex? name).bind (n.outputs[·]?)).elim 0 (·.active), turn)
  | .pulse output => turn.pulse output
  | .property name => (turn.script.property? turn.activation.node name, turn)
  | .setProperty name value =>
    turn.edit (turn.script.setProperty turn.activation.node name value)
  | .slotCount link => ((turn.link? link).elim 0 turn.script.slotCount, turn)
  | .slot link index => ((turn.link? link).bind (turn.script.linkValue? · index), turn)
  | .setSlot link index value =>
    turn.edit ((turn.link? link).elim (false, turn.script) (turn.script.setLinkValue · index value))
  | .pushNode node input => ((), turn.push [{ node := node, input := input }])
  | .pushTargets output => ((), turn.pushTargets output)
  | .pushSelf => ((), turn.push [turn.activation.resumed])
  | .signal event scope => turn.signal event scope
  | .send message => ((), { turn with bridge := turn.bridge.send message })
  | .note entry => ((), { turn with notes := turn.notes ++ [entry] })

end Turn

/-- Runs a program, with every request answered in turn. -/
def Program.run {α β : Type} : Program α → Turn β → α × Turn β
  | .done result, turn => (result, turn)
  | .ask r next, turn => run (next (turn.answer r).1) (turn.answer r).2

theorem Program.run_bind {α β γ : Type} (p : Program α) (f : α → Program γ) (turn : Turn β) :
    (p >>= f).run turn = (f (p.run turn).1).run (p.run turn).2 := by
  induction p generalizing turn with
  | done a => rfl
  | ask r next ih => simp [run, ih]

end FlowScript
