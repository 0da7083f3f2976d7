import FlowScript.Proofs.Apart
import FlowScript.Proofs.Containment

/-!
# What concerns one side

In a script whose sides stay apart (`Script.Follows` says what of it stays), a call on one side does
there what it does with the other side left out (`only_outcome`), and nothing of it is seen from the
other side (`only_outcome_of_not`). All that a call schedules is of its own side
(`side_of_scheduled`).
-/

namespace FlowScript

variable {β : Type} {side : NodeId → Bool}

/-- What is told of one side: its calls and failures, but for their position in the tick. -/
def Observation.only (side : NodeId → Bool) : Observation → Option Observation
  | .tickBegan tick => some (.tickBegan tick)
  | .called record =>
    if side record.node then some (.called { record with order := 0 }) else none
  | .failed record error =>
    if side record.node then some (.failed { record with order := 0 } error) else none
  | .tickEnded _ => none

namespace Director

/-- What concerns one side: its nodes, the activations of its nodes, its messages and what is told
of it. -/
def only (side : NodeId → Bool) (director : Director β) : Director β :=
  { director with
    script := director.script.only side
    nextWave := director.nextWave.filter (side ·.node)
    injected := director.injected.filter (side ·.node)
    bridge := director.bridge.only side
    trace := none
    told := director.told.filterMap (Observation.only side)
    notes := [] }

theorem only_observeCall (director : Director β) {record : Record} (hs : side record.node = true) :
    (director.observeCall record).only side =
      (director.only side).observeCall { record with order := 0 } := by
  simp [only, observeCall, observe, Observation.only, hs]

theorem only_complete (director : Director β) {turn : Turn β}
    (hs : side turn.activation.node = true) (behavior : β) (latent : Bool) :
    (director.only side).complete (turn.only side) behavior latent =
      (director.complete turn behavior latent).map id (only side) := by
  have hnode : (director.only side).script.node? turn.activation.node =
      director.script.node? turn.activation.node := Script.node?_only_of hs
  unfold complete
  rw [show (turn.only side).activation = turn.activation from rfl, hnode]
  split
  · rfl
  · have hscript := director.script.only_modifyNode side turn.activation.node
      (f := fun n => { n with behavior := some behavior, outputs := n.outputs.map (·.drain.2) })
      fun _ => rfl
    refine Prod.ext rfl ?_
    simp only [Prod.map, only, hscript]

theorem only_withdraw (director : Director β) {record : Record} (hs : side record.node = true)
    (behavior : β) (before : List Nat) (error : NodeError) :
    (director.only side).withdraw { record with order := 0 } behavior before error =
      (director.withdraw record behavior before error).map id (only side) := by
  have hnode : (director.only side).script.node? record.node = director.script.node? record.node :=
    Script.node?_only_of hs
  unfold withdraw
  simp only [hnode]
  split
  · rfl
  · have hscript := director.script.only_modifyNode side record.node
      (f := fun n => { n with
        behavior := some behavior, outputs := restoreActive n.outputs before }) fun _ => rfl
    refine Prod.ext rfl ?_
    simp [Prod.map, only, observe, Observation.only, hs, hscript]

theorem only_settle (director : Director β) {turn : Turn β} {record : Record}
    (ht : side turn.activation.node = true) (hr : side record.node = true) (before : List Nat)
    (verdict : Verdict) (behavior : β) :
    (director.only side).settle (turn.only side) { record with order := 0 } before verdict
        behavior = (director.settle turn record before verdict behavior).map id (only side) := by
  have hc : (director.only side).config = director.config := rfl
  unfold settle
  rw [hc]
  split
  · exact director.only_complete ht behavior _
  · exact director.only_withdraw hr behavior before _
  · split
    · exact director.only_withdraw hr behavior before _
    · rfl

theorem only_turn (director : Director β) (activation : Activation) (graph : GraphId) :
    (director.only side).turn activation graph = (director.turn activation graph).only side := by
  have hscript := director.script.only_modifyNode side activation.node
    (f := fun n => { n with behavior := none }) fun _ => rfl
  simp only [turn, Turn.only, only, hscript]

end Director

/-! ## Moments -/

/-- What play leaves of a script whose sides are apart: the events that are found, and what the
behaviors are but for their private state. -/
structure Script.Follows (start script : Script Standard) : Prop where
  retains : start.Retains script
  moves : Moves (fun _ => True) start script

namespace Moment

/-- The moment as far as it concerns one side. -/
def only (side : NodeId → Bool) (m : Moment β) : Moment β :=
  ⟨m.director.only side, 0, m.depth, m.activation⟩

theorem target?_only {m : Moment β} (hs : side m.activation.node = true) :
    (m.only side).target? = m.target? := by
  unfold target?
  exact congrArg (Option.filter _) (Script.node?_only_of hs)

theorem answered_retains (m : Moment Standard) (node : Node Standard) (behavior : Standard) :
    m.director.script.Retains (m.answered node behavior).2.script := by
  have hturn : m.director.script.Retains (m.director.turn m.activation node.graph).script :=
    .book _ _ fun n => n.booked_none
  exact hturn.trans (.of_written (m.answered_written node behavior) behavior.not_mem_writes)

theorem retains (m : Moment Standard) : m.director.script.Retains m.outcome.2.script := by
  generalize m.outcome.2.script = left, m.leaves = hleft
  cases hleft with
  | untouched => exact .refl _
  | unwound target owned => exact m.answered_retains _ _
  | booked target owned kept back => exact (m.answered_retains _ _).trans (.book _ _ kept)

theorem follows {m : Moment Standard} {start : Script Standard}
    (h : start.Follows m.director.script) (goes : ¬ m.outcome.1.IsHalt) :
    start.Follows m.outcome.2.script :=
  ⟨h.retains.trans m.retains, h.moves.trans ((m.moves goes).mono fun _ _ => trivial)⟩

theorem only_after_of_not {m : Moment Standard} (hs : side m.activation.node = false)
    {node : Node Standard} {call : Call Standard} {script : Script Standard}
    (ht : m.target? = some node) (hc : m.call? = some call)
    (hscript : script.only side = m.director.script.only side) :
    (m.after node call script).only side = m.director.only side := by
  have hbridge : call.turn.bridge.only side = m.director.bridge.only side := by
    obtain ⟨node, behavior, -, -, -, hturn⟩ := call?_eq_some hc
    rw [hturn]
    exact Turn.only_bridge_run (Standard.react_heeds behavior _ _ _) hs
  have htold : m.observations.filterMap (Observation.only side) = [] := by
    have hrecord : side (m.record node).node = false := hs
    refine List.filterMap_eq_nil_iff.2 fun o ho => ?_
    simp only [observations, ht, hc, List.mem_cons, Option.mem_toList, Option.map_eq_some_iff] at ho
    rcases ho with rfl | ⟨error, -, rfl⟩ <;> simp [Observation.only, hrecord]
  simp only [Director.only, after, List.filterMap_append, List.filterMap_reverse, htold, hbridge,
    hscript, List.reverse_nil, List.nil_append]

section apart

variable {m : Moment Standard} {start : Script Standard} (h : start.Follows m.director.script)

include h

theorem calls {node : Node Standard} {behavior : Standard} (ht : m.target? = some node)
    (hb : node.behavior = some behavior) :
    (m.director.turn m.activation node.graph).Calls start behavior where
  retains := h.retains.trans (.book _ _ fun n => n.booked_none)
  caller := by
    obtain ⟨old, hold, hsame⟩ :=
      Script.node?_of_skeleton h.retains.skeleton (target?_eq_some.1 ht).1
    have hblank := h.moves.blank m.activation.node
    rw [behavior?_of_target? ht, hb, Script.behavior?, hold, Option.bind_some] at hblank
    exact ⟨old, hold, (congrArg Node.graph hsame :).symm, hblank.symm⟩

variable (apart : start.Apart side)

include apart

theorem only_script_of_not (hs : side m.activation.node = false) :
    m.outcome.2.script.only side = m.director.script.only side := by
  have answered : ∀ {node : Node Standard} {behavior : Standard},
      (m.answered node behavior).2.script.only side = m.director.script.only side := by
    intro node behavior
    have hturn : (m.director.turn m.activation node.graph).script.only side
        = m.director.script.only side :=
      m.director.script.only_modifyNode_of_not hs fun _ => rfl
    refine ((m.answered_written node behavior).apart side fun id hr => ?_).trans hturn
    have hskeleton := (m.turn_skeleton node).trans h.retains.skeleton
    exact ((apart.toParted.of_skeleton hskeleton).reaches hr).trans hs
  generalize m.outcome.2.script = left, m.leaves = hleft
  cases hleft with
  | untouched => rfl
  | unwound target owned => exact answered
  | booked target owned kept back =>
    exact (Script.only_modifyNode_of_not _ hs fun n => (kept n).id).trans answered

theorem only_outcome_of_not (hs : side m.activation.node = false) (goes : ¬ m.outcome.1.IsHalt) :
    m.outcome.2.only side = m.director.only side := by
  have hscript := only_script_of_not h apart hs
  cases m.handled with
  | discarded target outcome => rw [outcome]
  | halted halt => exact absurd halt goes
  | failed node call script error target made verdict fate after =>
    rw [after] at hscript ⊢
    exact only_after_of_not hs target made hscript
  | completed node call script latent target made verdict fate after spent =>
    rw [after] at hscript ⊢
    exact only_after_of_not hs target made hscript

variable (hu : start.Unlinked)

include hu

/-- All that a call schedules is of the side of its node. -/
theorem side_of_scheduled :
    ∀ b ∈ m.carried ++ m.entered, side b.node = side m.activation.node := by
  rcases hc : m.call? with _ | ⟨_ | latent, turn, found⟩
  · simp [carried, entered, hc]
  · simp [carried, entered, hc]
  obtain ⟨node, behavior, ht, hb, -, -⟩ := call?_eq_some hc
  have parted := apart.toParted.of_skeleton h.retains.skeleton
  have hfired : ∀ b ∈ turn.fired, side b.node = side m.activation.node :=
    fun b hb => parted.feeds (fired_feeds hc b hb)
  have hframes : ∀ frame ∈ turn.frames, ∀ b ∈ frame, side b.node = side m.activation.node := by
    intro frame hframe b hb
    rcases (frames_open hc).1 frame hframe with rfl | hfed
    · rw [List.mem_singleton.1 hb]
      rfl
    · exact parted.feeds (hfed b hb)
  have hfound : ∀ id ∈ found, side id = side m.activation.node := by
    rw [call?_of_behavior ht hb] at hc
    obtain ⟨-, -, rfl⟩ := Call.mk.inj (Option.some.inj hc)
    exact (calls h ht hb).side_found apart hu (Standard.react_heeds behavior _ _ _)
  intro b hb
  simp only [carried, entered, hc, List.mem_append] at hb
  rcases hb with ((hb | hb) | hb) | hb | hb
  · split at hb
    · rw [List.mem_singleton.1 hb]
      rfl
    · cases hb
  · split at hb
    · exact hfired b hb
    · cases hb
  · obtain ⟨id, hid, rfl⟩ := List.mem_map.1 hb
    exact hfound id hid
  · obtain ⟨frame, hframe, hb⟩ := List.mem_flatten.1 hb
    exact hframes frame hframe b hb
  · split at hb
    · cases hb
    · exact hfired b hb

theorem answered_only (hs : side m.activation.node = true) {node : Node Standard}
    {behavior : Standard} (ht : m.target? = some node) (hb : node.behavior = some behavior) :
    (m.only side).answered node behavior = (m.answered node behavior).map id (Turn.only side) := by
  have hrun := (calls h ht hb).run_only apart hu
    (Standard.react_heeds behavior m.activation.input m.activation.first _) hs
  rw [← Director.only_turn] at hrun
  exact hrun

/-- A call on a side does there what it does with the other side left out. -/
theorem only_outcome (hs : side m.activation.node = true) :
    (m.only side).outcome = m.outcome.map id (Director.only side) := by
  have hsame := target?_only hs
  rcases ht : m.target? with _ | node
  · rw [outcome_of_target?_none ht, outcome_of_target?_none (hsame.trans ht)]
    rfl
  rcases hb : node.behavior with _ | behavior
  · rw [outcome_of_behavior_none ht hb, outcome_of_behavior_none (hsame.trans ht) hb]
    rfl
  have hturn : side (m.answered node behavior).2.activation.node = true := by
    rw [m.answered_activation, hs]
  have hrecord : side (m.record node).node = true := hs
  rw [outcome_of_behavior ht hb, outcome_of_behavior (hsame.trans ht) hb,
    answered_only h apart hu hs ht hb, ← Director.only_settle _ hturn hrecord]
  congr 1
  exact (congrArg (Director.keep · _) (m.director.only_observeCall hrecord)).symm

end apart

end Moment

end FlowScript
