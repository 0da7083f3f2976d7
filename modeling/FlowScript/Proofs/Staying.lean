import FlowScript.Agent
import FlowScript.Proofs.Containment
import FlowScript.Proofs.Feeding
import FlowScript.Proofs.Pulses
import FlowScript.Proofs.Untouched

/-!
# A node that stays

A node that is not removed keeps its shape, and its behavior is changed by its own calls only: no
move of a host changes it (`Holds.move`), and no activation of another node does (`Holds.apart`). So
what holds of a node goes from one state to another along its calls (`Director.chain_update`).
-/

namespace FlowScript

variable {β : Type}

/-- The standard behaviors are among those of a host. -/
structure Hosts [Behavior β] (embed : Standard → β) : Prop where
  reacts (behavior : Standard) (input : Option Nat) (first : Bool) :
    Behavior.react (embed behavior) input first =
      (fun ended => (ended.1, embed ended.2)) <$> behavior.react input first

theorem Standard.hosts : Hosts (id : Standard → Standard) :=
  ⟨fun behavior input first => (Program.bind_done (behavior.react input first)).symm⟩

theorem Agent.hosts : Hosts Agent.standard := ⟨fun _ _ _ => rfl⟩

/-- A standard behavior does in a host what it does by itself. -/
theorem Hosts.performs [Behavior β] {embed : Standard → β} (hosts : Hosts embed) {σ : Type}
    {act : Option Nat → Bool → Act σ Bool} {state : σ → Standard} (h : Performs act state) :
    Performs act fun s => embed (state s) := by
  intro s input first
  rw [hosts.reacts]
  exact (congrArg _ (h s input first)).trans (Program.bind_assoc _ _ _)

theorem Node.shape_of_skeleton {node node' : Node β} (h : node'.skeleton = node.skeleton) :
    node'.shape = node.shape := by
  rw [← node'.shape_skeleton, h, node.shape_skeleton]

/-- Without a panic the tick goes on after a call. -/
theorem Moment.goes_of_calm [Behavior β] {m : Moment β} {node : Node β} {behavior : β}
    (ht : m.target? = some node) (hb : node.behavior = some behavior)
    (calm : ∀ text, (m.answered node behavior).1.1 ≠ .error (.panicked text)) :
    ¬ m.outcome.1.IsHalt := by
  cases settles ht hb with
  | unwound text uncaught verdict fate => exact absurd verdict (calm text)
  | booked book kept back goes script => exact goes

namespace Script

variable {script : Script β} {id : NodeId}

/-- An edit that leaves a node there leaves its shape and its behavior. -/
theorem edit_stays (change : Edit β) {node node' : Node β} (hn : script.node? id = some node)
    (hn' : (script.edit change).node? id = some node') :
    node'.shape = node.shape ∧ node'.behavior = node.behavior := by
  by_cases hw : change.Writes
  · have hwritten := written_edit script hw
    obtain ⟨old, hold, hsame⟩ := node?_of_skeleton hwritten.skeleton hn'
    obtain rfl := Option.some.inj (hn.symm.trans hold)
    have hbehavior := hwritten.behavior id
    rw [behavior?, behavior?, hn', hn, Option.bind_some, Option.bind_some] at hbehavior
    exact ⟨Node.shape_of_skeleton hsame, hbehavior⟩
  rcases script.keeps_edit hw with hk | ⟨graph, builder, added, rfl, ha, heq⟩
  · obtain ⟨old, hold, hsame⟩ := hk id node' hn'
    obtain rfl := Option.some.inj (hn.symm.trans hold)
    have hbehavior : node'.cleared.behavior = node.cleared.behavior := by rw [hsame]
    refine ⟨?_, hbehavior⟩
    rw [← node'.shape_cleared, hsame, node.shape_cleared]
  · -- The new node comes after the others.
    obtain ⟨-, rfl⟩ := addNode_eq_ok ha
    rw [heq, node?_withNode, hn, Option.some_or] at hn'
    obtain rfl := Option.some.inj hn'
    exact ⟨rfl, rfl⟩

theorem move_stays {director : Director β} (move : Move β) {node node' : Node β}
    (hn : director.script.node? id = some node)
    (hn' : (director.move move).script.node? id = some node') :
    node'.shape = node.shape ∧ node'.behavior = node.behavior := by
  rcases director.move_script move with heq | ⟨change, -, heq⟩ <;> rw [heq] at hn'
  · obtain rfl := Option.some.inj (hn.symm.trans hn')
    exact ⟨rfl, rfl⟩
  · exact edit_stays change hn hn'

/-- The node is there in its shape, with its behavior in place. -/
def Holds (script : Script β) (id : NodeId) (shape : NodeBuilder Unit) (behavior : β) : Prop :=
  ∃ node, script.node? id = some node ∧ node.shape = shape ∧ node.behavior = some behavior

namespace Holds

variable {shape : NodeBuilder Unit} {behavior : β}

theorem move {director : Director β} (h : director.script.Holds id shape behavior) (move : Move β)
    (stays : (director.move move).script.containsNode id = true) :
    (director.move move).script.Holds id shape behavior := by
  obtain ⟨node, hn, hshape, hb⟩ := h
  obtain ⟨node', hn'⟩ := Option.isSome_iff_exists.1 stays
  obtain ⟨hsame, hsame'⟩ := move_stays move hn hn'
  exact ⟨node', hn', hsame.trans hshape, hsame'.trans hb⟩

variable [Behavior β] {m : Moment β}

theorem ignored (h : m.director.script.Holds id shape behavior) (ht : m.target? = none) :
    m.outcome.2.script.Holds id shape behavior := by
  rwa [Moment.outcome_of_target?_none ht]

theorem apart (h : m.director.script.Holds id shape behavior) (hid : m.activation.node ≠ id) :
    m.outcome.2.script.Holds id shape behavior := by
  obtain ⟨node, hn, hshape, hb⟩ := h
  obtain ⟨node', hn', ⟨properties, rfl, -⟩, -⟩ := m.spares.node id node hn (by
    rintro ⟨m', hm', heq, -⟩
    rw [List.mem_singleton.1 hm'] at heq
    exact hid heq)
  exact ⟨_, hn', hshape, hb⟩

/-- After a call the node has what its behavior became. -/
theorem called {node : Node β} (h : m.director.script.Holds m.activation.node shape behavior)
    (ht : m.target? = some node) (hb : node.behavior = some behavior)
    (goes : ¬ m.outcome.1.IsHalt) :
    m.outcome.2.script.Holds m.activation.node shape (m.answered node behavior).1.2 := by
  obtain ⟨node', hn, hshape, -⟩ := h
  obtain rfl := Option.some.inj ((Moment.target?_eq_some.1 ht).1.symm.trans hn)
  obtain ⟨after, hafter, hsame⟩ :=
    node?_of_skeleton (skeleton_lasting.outcome m).symm hn
  rcases m.behavior?_outcome goes with ⟨hnone, -⟩ | ⟨node', behavior', ht', hb', hbehavior⟩
  · rw [hnone] at ht
    cases ht
  obtain rfl := Option.some.inj (ht.symm.trans ht')
  obtain rfl := Option.some.inj (hb.symm.trans hb')
  have hself := hbehavior m.activation.node
  rw [if_pos rfl, behavior?, hafter, Option.bind_some] at hself
  exact ⟨after, hafter, (Node.shape_of_skeleton hsame.symm).trans hshape, hself⟩

/-- After a call that does not panic the node has the private state that its act came to. -/
theorem ran {σ : Type} {act : Option Nat → Bool → Act σ Bool} {state : σ → β} {s s' : σ}
    {node : Node β} {verdict : Verdict} {turn' : Turn β} {pulses : List Nat}
    (performs : Performs act state)
    (h : m.director.script.Holds m.activation.node shape (state s)) (ht : m.target? = some node)
    (hb : node.behavior = some (state s))
    (hruns : (act m.activation.input m.activation.first).Runs s (m.start node) verdict s' turn'
      pulses) (calm : ∀ text, verdict ≠ .error (.panicked text)) :
    ¬ m.outcome.1.IsHalt ∧ m.outcome.2.script.Holds m.activation.node shape (state s') := by
  obtain ⟨-, hanswered, -⟩ := Moment.call?_of_runs performs ht hb hruns
  have hgoes := Moment.goes_of_calm ht hb (by rw [hanswered]; exact calm)
  refine ⟨hgoes, ?_⟩
  have hcalled := h.called ht hb hgoes
  rwa [hanswered] at hcalled

end Holds

end Script

/-! ## One call after another -/

section calls

variable {σ : Type} {R : σ → Moment β → σ → Prop} {first between last : σ}
  {calls calls' : List (Moment β)}

namespace Moment

/-- The calls lead from one state to another, each from where the last one led. -/
inductive Chain (R : σ → Moment β → σ → Prop) : σ → List (Moment β) → σ → Prop where
  | nil {state : σ} : Chain R state [] state
  | cons {state next last : σ} {m : Moment β} {calls : List (Moment β)} (step : R state m next)
      (rest : Chain R next calls last) : Chain R state (m :: calls) last

namespace Chain

theorem single {m : Moment β} (step : R first m last) : Chain R first [m] last := .cons step .nil

theorem append (h : Chain R first calls between) (h' : Chain R between calls' last) :
    Chain R first (calls ++ calls') last := by
  induction h with
  | nil => exact h'
  | cons step rest ih => exact .cons step (ih h')

theorem split (h : Chain R first (calls ++ calls') last) :
    ∃ between, Chain R first calls between ∧ Chain R between calls' last := by
  induction calls generalizing first with
  | nil => exact ⟨first, .nil, h⟩
  | cons m calls ih =>
    cases h with
    | cons step rest =>
      obtain ⟨between, hcalls, hcalls'⟩ := ih rest
      exact ⟨between, .cons step hcalls, hcalls'⟩

theorem concat {m : Moment β} (h : Chain R first (calls ++ [m]) last) :
    ∃ between, Chain R first calls between ∧ R between m last := by
  obtain ⟨between, hcalls, hlast⟩ := h.split
  cases hlast with
  | cons step rest =>
    cases rest
    exact ⟨between, hcalls, step⟩

end Chain

variable [Behavior β]

/-- The calls of a node among the moments. -/
def callsOf (id : NodeId) (history : List (Moment β)) : List (Moment β) :=
  history.filter fun m => m.activation.node = id ∧ m.isInvoked = true

theorem callsOf_append (id : NodeId) (history history' : List (Moment β)) :
    callsOf id (history ++ history') = callsOf id history ++ callsOf id history' :=
  List.filter_append _ _

theorem callsOf_self {m : Moment β} (h : m.isInvoked = true) :
    callsOf m.activation.node [m] = [m] := by
  simp [callsOf, h]

theorem callsOf_apart {m : Moment β} {id : NodeId} (h : m.activation.node ≠ id) :
    callsOf id [m] = [] := by
  simp [callsOf, h]

theorem callsOf_idle {m : Moment β} (h : m.isInvoked = false) (id : NodeId) :
    callsOf id [m] = [] := by
  simp [callsOf, h]

theorem callsOf_ignored {m : Moment β} (h : m.target? = none) (id : NodeId) :
    callsOf id [m] = [] :=
  callsOf_idle (by rw [isInvoked, call?, h, Option.bind_none, Option.isSome_none]) id

end Moment

/-- What holds at a state of a node, and is kept as the calls of the node lead from state to state,
holds after a tick at the state to which the calls of the tick led. -/
theorem Director.chain_update [Behavior β] {P : σ → Script β → Prop} {Q : Moment β → Prop}
    {id : NodeId}
    (step : ∀ m state, Q m → P state m.director.script →
      ∃ next, Moment.Chain R state (Moment.callsOf id [m]) next ∧ P next m.outcome.2.script)
    {director after : Director β} {fuel : Nat} {sim real : Float} {ending : Except Halt Report}
    (h : director.update fuel sim real = some (ending, after))
    (hq : ∀ m ∈ director.history fuel sim real, Q m) {state : σ} (hp : P state director.script) :
    ∃ last, Moment.Chain R state (Moment.callsOf id (director.history fuel sim real)) last
      ∧ P last after.script := by
  refine Director.script_induction (motive := fun before history after =>
    (∀ m ∈ history, Q m) → ∀ state, P state before → ∃ last,
      Moment.Chain R state (Moment.callsOf id history) last ∧ P last after)
    (fun script _ state hp => ⟨state, .nil, hp⟩) (fun m history after ih hq state hp => ?_) h hq
    state hp
  rw [List.forall_mem_cons] at hq
  obtain ⟨next, hfirst, hnext⟩ := step m state hq.1 hp
  obtain ⟨last, hrest, hlast⟩ := ih hq.2 next hnext
  exact ⟨last, Moment.callsOf_append id [m] history ▸ hfirst.append hrest, hlast⟩

end calls

end FlowScript
