import FlowScript.Proofs.Call
import FlowScript.Proofs.Lookup

/-!
# One activation handled

A moment is an activation together with the director that is about to handle it. An activation is
discarded exactly when it has no target (`outcome_eq_discarded`), and otherwise its target is
called once. What a call that succeeds schedules is what its turn holds at the end
(`call_of_completed`), and neither queue of the director is touched by a call.
-/

namespace FlowScript

variable {β : Type}

/-- What the pulses of a node lead to: for each output in turn, the connected inputs in the order
of their connection, once for each pulse. -/
def Node.fired (node : Node β) : List Activation :=
  node.outputs.flatMap fun output => (List.replicate output.active output.targets).flatten

/-- What the pulses of the node that was called lead to. -/
def Turn.fired (turn : Turn β) : List Activation := turn.node?.elim [] (·.fired)

/-- A call that was made: how it ended, its turn at the end and the events that it found. -/
structure Call (β : Type) where
  verdict : Verdict
  turn : Turn β
  found : List NodeId

/-- The failure that a call is reported with. -/
def Call.error? (call : Call β) : Option NodeError :=
  match call.verdict with
  | .ok _ => none
  | .error (.failed error) => some error
  | .error (.panicked text) => some (.panicked (panicText text))

/-- What a call that wants, or does not want, to be called again scheduled. -/
def Call.effects (call : Call β) (latent : Bool) : Effects where
  latent := latent
  fired := call.turn.fired
  frames := call.turn.frames
  signalled := call.found.map fun id => { node := id, input := none }

/-- The tick ends with this activation. -/
def Fate.IsHalt : Fate → Prop
  | .faulted _ | .unwound _ => True
  | _ => False

/-- An activation at the moment at which it is handled. -/
structure Moment (β : Type) where
  director : Director β
  /-- The number of calls made before in the tick. -/
  order : Nat
  /-- The number of open frames. -/
  depth : Nat
  activation : Activation

namespace Moment

/-- The node that the activation calls. There is none when the node is gone or is a cell, and when
the input is gone. -/
def target? (m : Moment β) : Option (Node β) :=
  (m.director.script.node? m.activation.node).filter (·.accepts m.activation.input)

/-- The record of a call of the given node. -/
def record (m : Moment β) (node : Node β) : Record where
  tick := m.director.clock.tick
  order := m.order
  graph := node.graph
  node := m.activation.node
  input := m.activation.input
  first := m.activation.first
  depth := m.depth

theorem target?_eq_some {m : Moment β} {node : Node β} : m.target? = some node ↔
    m.director.script.node? m.activation.node = some node
      ∧ node.accepts m.activation.input = true := by
  unfold target?
  rw [Option.filter_eq_some_iff]

theorem isSome_target? {m : Moment β} : m.target?.isSome ↔
    ∃ node, m.director.script.node? m.activation.node = some node ∧ node.isValueNode = false
      ∧ ∀ index, m.activation.input = some index → index < node.inputs.length := by
  rw [Option.isSome_iff_exists]
  refine exists_congr fun node => ?_
  rw [target?_eq_some]
  simp [Node.accepts, Option.all_eq_true]

variable [Behavior β]

/-- What becomes of the activation, and the director after it. -/
def outcome (m : Moment β) : Fate × Director β :=
  m.director.invoke m.order m.depth m.activation

/-- What the behavior of the target does, from a fresh turn to its end. -/
def answered (m : Moment β) (node : Node β) (behavior : β) : (Verdict × β) × Turn β :=
  (Behavior.react behavior m.activation.input m.activation.first).run
    (m.director.turn m.activation node.graph)

/-- The call that is made, if there is a target and its behavior is in place. -/
def call? (m : Moment β) : Option (Call β) :=
  m.target?.bind fun node => node.behavior.map fun behavior =>
    { verdict := (m.answered node behavior).1.1
      turn := (m.answered node behavior).2
      found := (Behavior.react behavior m.activation.input m.activation.first).found
        (m.director.turn m.activation node.graph) }

/-- What the watchers of the director are told of the activation. -/
def observations (m : Moment β) : List Observation :=
  match m.target?, m.call? with
  | some node, some call =>
    .called (m.record node) :: (call.error?.map (.failed (m.record node))).toList
  | _, _ => []

/-! ## How an activation is handled -/

theorem outcome_of_target?_none {m : Moment β} (h : m.target? = none) :
    m.outcome = (.discarded, m.director) := by
  unfold outcome Director.invoke
  rcases hn : m.director.script.node? m.activation.node with _ | node
  · rfl
  · have ha : node.accepts m.activation.input = false := by
      simpa [target?, hn] using h
    simp [ha]

theorem outcome_of_behavior_none {m : Moment β} {node : Node β} (h : m.target? = some node)
    (hb : node.behavior = none) :
    m.outcome = (.faulted (m.activation.node.text ++ " has no behavior"),
      m.director.fail (m.activation.node.text ++ " has no behavior")) := by
  obtain ⟨hn, ha⟩ := target?_eq_some.1 h
  unfold outcome Director.invoke
  simp only [hn, ha, hb, Bool.not_true, Bool.false_eq_true, ↓reduceIte]

theorem outcome_of_behavior {m : Moment β} {node : Node β} {behavior : β}
    (h : m.target? = some node) (hb : node.behavior = some behavior) :
    m.outcome = ((m.director.observeCall (m.record node)).keep (m.answered node behavior).2).settle
      (m.answered node behavior).2 (m.record node) (node.outputs.map (·.active))
      (m.answered node behavior).1.1 (m.answered node behavior).1.2 := by
  obtain ⟨hn, ha⟩ := target?_eq_some.1 h
  unfold outcome Director.invoke
  simp only [hn, ha, hb, Bool.not_true, Bool.false_eq_true, ↓reduceIte]
  rfl

theorem answered_activation (m : Moment β) (node : Node β) (behavior : β) :
    (m.answered node behavior).2.activation = m.activation :=
  Program.run_activation _ _

theorem answered_signalled (m : Moment β) (node : Node β) (behavior : β) :
    (m.answered node behavior).2.signalled
      = (Behavior.react behavior m.activation.input m.activation.first).found
        (m.director.turn m.activation node.graph) :=
  Program.run_signalled _ _

theorem call?_of_behavior {m : Moment β} {node : Node β} {behavior : β}
    (h : m.target? = some node) (hb : node.behavior = some behavior) :
    m.call? = some ⟨(m.answered node behavior).1.1, (m.answered node behavior).2,
      (Behavior.react behavior m.activation.input m.activation.first).found
        (m.director.turn m.activation node.graph)⟩ := by
  simp only [call?, h, hb, Option.bind_some, Option.map_some]

end Moment

namespace Director

/-- Every pulse of a node is taken. -/
def Spent (director : Director β) (id : NodeId) : Prop :=
  ∃ node, director.script.node? id = some node ∧ ∀ output ∈ node.outputs, output.active = 0

theorem complete_cases (director : Director β) (turn : Turn β) (behavior : β) (latent : Bool) :
    (∃ reason, director.complete turn behavior latent = (.faulted reason, director.fail reason))
      ∨ ∃ node script, director.script.node? turn.activation.node = some node
        ∧ director.complete turn behavior latent =
          (.completed {
              latent := latent
              fired := node.fired
              frames := turn.frames
              signalled := turn.signalled.map fun id => { node := id, input := none } },
            { director with script := script })
        ∧ Spent { director with script := script } turn.activation.node := by
  unfold complete
  split
  · exact .inl ⟨_, rfl⟩
  · rename_i node hn
    refine .inr ⟨node, director.script.modifyNode turn.activation.node fun n =>
      { n with behavior := some behavior, outputs := n.outputs.map (·.drain.2) }, hn, ?_, ?_⟩
    · simp only [Node.fired, OutputLink.drain_eq]
    · refine ⟨{ node with behavior := some behavior, outputs := node.outputs.map (·.drain.2) },
        ?_, ?_⟩
      · simp only []
        rw [Script.node?_modifyNode_self, hn, Option.map_some]
        exact fun _ => rfl
      · intro output ho
        obtain ⟨link, -, rfl⟩ := List.mem_map.1 ho
        rw [OutputLink.drain_eq]

theorem withdraw_cases (director : Director β) (record : Record) (behavior : β)
    (before : List Nat) (error : NodeError) :
    (∃ reason, director.withdraw record behavior before error
        = (.faulted reason, director.fail reason))
      ∨ ∃ script, director.withdraw record behavior before error
        = (.failed, { director with script := script }.observe (.failed record error)) := by
  unfold withdraw
  split
  · exact .inl ⟨_, rfl⟩
  · exact .inr ⟨_, rfl⟩

end Director

namespace Moment

variable [Behavior β]

/-- The director after a call, given the script after it. -/
def after (m : Moment β) (node : Node β) (call : Call β) (script : Script β) : Director β :=
  { m.director with
    script := script
    bridge := call.turn.bridge
    notes := call.turn.notes
    trace := m.director.trace.map (·.add (m.record node))
    told := m.observations.reverse ++ m.director.told }

theorem seen_after (m : Moment β) (node : Node β) (call : Call β) (script : Script β) :
    (m.after node call script).seen = m.director.seen ++ m.observations := by
  unfold Director.seen after
  rw [List.reverse_append, List.reverse_reverse]

/-- What can become of an activation. -/
inductive Handled (m : Moment β) : Prop where
  | discarded (target : m.target? = none) (outcome : m.outcome = (.discarded, m.director))
  | halted (halt : m.outcome.1.IsHalt)
  /-- The call failed, and only what it wrote and sent remains. -/
  | failed (node : Node β) (call : Call β) (script : Script β) (error : NodeError)
      (target : m.target? = some node) (made : m.call? = some call)
      (verdict : call.error? = some error) (fate : m.outcome.1 = .failed)
      (after : m.outcome.2 = m.after node call script)
  /-- The call schedules what its turn holds, and its node has no pulse left. -/
  | completed (node : Node β) (call : Call β) (script : Script β) (latent : Bool)
      (target : m.target? = some node) (made : m.call? = some call)
      (verdict : call.verdict = .ok latent)
      (fate : m.outcome.1 = .completed (call.effects latent))
      (after : m.outcome.2 = m.after node call script)
      (spent : m.outcome.2.Spent m.activation.node)

theorem handled_of_withdraw {m : Moment β} {node : Node β} {call : Call β} {error : NodeError}
    {behavior : β} {before : List Nat} (ht : m.target? = some node) (hc : m.call? = some call)
    (he : call.error? = some error)
    (ho : m.outcome = ((m.director.observeCall (m.record node)).keep call.turn).withdraw
      (m.record node) behavior before error) : m.Handled := by
  rcases Director.withdraw_cases _ _ _ _ _ with ⟨reason, h⟩ | ⟨script, h⟩
  · exact .halted (by rw [ho, h]; trivial)
  · refine .failed node call script error ht hc he (by rw [ho, h]) ?_
    have hobs : m.observations = [.called (m.record node), .failed (m.record node) error] := by
      simp only [observations, ht, hc, he, Option.map_some, Option.toList_some]
    rw [ho, h, after, hobs]
    simp [Director.observe, Director.keep, Director.observeCall]

theorem handled_of_complete {m : Moment β} {node : Node β} {call : Call β} {behavior : β}
    {latent : Bool} (ht : m.target? = some node) (hc : m.call? = some call)
    (hv : call.verdict = .ok latent) (ha : call.turn.activation = m.activation)
    (hs : call.turn.signalled = call.found)
    (ho : m.outcome = ((m.director.observeCall (m.record node)).keep call.turn).complete
      call.turn behavior latent) : m.Handled := by
  rcases Director.complete_cases _ call.turn behavior latent with
    ⟨reason, h⟩ | ⟨n, script, hn, h, hsp⟩
  · exact .halted (by rw [ho, h]; trivial)
  · refine .completed node call script latent ht hc hv ?_ ?_ ?_
    · have hn : call.turn.node? = some n := hn
      rw [ho, h, Call.effects, Turn.fired, hn, ← hs]
      rfl
    · have hobs : m.observations = [.called (m.record node)] := by
        simp only [observations, ht, hc, Call.error?, hv, Option.map_none, Option.toList_none]
      rw [ho, h, after, hobs]
      rfl
    · rw [ho, h, ← ha]
      exact hsp

theorem handled (m : Moment β) : m.Handled := by
  rcases ht : m.target? with _ | node
  · exact .discarded ht (outcome_of_target?_none ht)
  rcases hb : node.behavior with _ | behavior
  · exact .halted (by rw [outcome_of_behavior_none ht hb]; trivial)
  have hc := call?_of_behavior ht hb
  have ho := outcome_of_behavior ht hb
  unfold Director.settle at ho
  split at ho
  · rename_i latent hv
    exact handled_of_complete ht hc hv (m.answered_activation node behavior)
      (m.answered_signalled node behavior) ho
  · rename_i error hv
    exact handled_of_withdraw ht hc (by rw [Call.error?, hv]) ho
  · rename_i text hv
    split at ho
    · exact handled_of_withdraw ht hc (by rw [Call.error?, hv]) ho
    · exact .halted (by rw [ho]; trivial)

theorem discarded_iff {m : Moment β} : m.outcome.1 = .discarded ↔ m.target? = none := by
  refine ⟨fun h => ?_, fun h => by rw [outcome_of_target?_none h]⟩
  cases m.handled with
  | discarded target outcome => exact target
  | halted halt => rw [h] at halt; exact halt.elim
  | failed node call script error target made verdict fate => rw [h] at fate; cases fate
  | completed node call script latent target made verdict fate => rw [h] at fate; cases fate

end Moment

end FlowScript
