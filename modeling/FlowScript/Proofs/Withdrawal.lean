import FlowScript.Proofs.Containment
import FlowScript.Proofs.Feeding
import FlowScript.Proofs.Untouched
import Mathlib.Logic.Relation

/-!
# What a failed call leaves behind

A failed call is undone in part. The pulses of its node are set back, which no other call has
touched in between, and what it pushed, fired and signalled is never taken over; what it wrote and
sent stays, and so does the private state of its behavior (`Moment.outcome_of_error`). The tick goes
on with whatever waited behind the activation (`failures_contained`).
-/

namespace FlowScript

variable {β : Type}

/-- Pulse counts can be set back as long as nothing else of the outputs has changed. -/
theorem restoreActive_eq : ∀ {links before : List OutputLink},
    links.map OutputLink.skeleton = before.map OutputLink.skeleton →
      restoreActive links (before.map (·.active)) = before
  | [], before, h => by
    obtain rfl := List.map_eq_nil_iff.1 h.symm
    rfl
  | link :: links, [], h => by cases h
  | link :: links, old :: before, h => by
    obtain ⟨hlink, hrest⟩ := List.cons.inj h
    have hsame : { link with active := old.active } = old := by
      obtain ⟨name, connected, active⟩ := link
      obtain ⟨name', connected', active'⟩ := old
      simp only [OutputLink.skeleton, OutputLink.mk.injEq, and_true] at hlink ⊢
      exact hlink
    rw [List.map_cons, restoreActive, hsame, restoreActive_eq hrest]

theorem Node.outputs_of_skeleton {node node' : Node β} (h : node'.skeleton = node.skeleton) :
    node'.outputs.map OutputLink.skeleton = node.outputs.map OutputLink.skeleton :=
  (congrArg Node.outputs h :)

/-- The node with its behavior back in place and its pulses set back. -/
def Node.setBack (node : Node β) (behavior : β) (before : List Nat) : Node β :=
  { node with behavior := some behavior, outputs := restoreActive node.outputs before }

theorem Node.id_setBack (node : Node β) (behavior : β) (before : List Nat) :
    (node.setBack behavior before).id = node.id := rfl

theorem Node.booked_setBack (node : Node β) (behavior : β) (before : List Nat) :
    node.Booked (node.setBack behavior before) :=
  ⟨_, _, rfl, restoreActive_skeleton node.outputs before⟩

section calls

variable [Behavior β]

namespace Moment

/-- The script after a call that failed: the behavior is back and the pulses are as before. -/
def undone (m : Moment β) (node : Node β) (behavior : β) : Script β :=
  (m.answered node behavior).2.script.modifyNode m.activation.node
    (·.setBack (m.answered node behavior).1.2 (node.outputs.map (·.active)))

/-- A call that fails, or panics where panics are caught, is withdrawn. -/
theorem outcome_of_error {m : Moment β} {node : Node β} {behavior : β} {call : Call β}
    {error : NodeError} (ht : m.target? = some node) (hb : node.behavior = some behavior)
    (hc : m.call? = some call) (he : call.error? = some error)
    (caught : ∀ text, call.verdict = .error (.panicked text) →
      m.director.config.catchPanics = true) :
    m.outcome = (.failed, m.after node call (m.undone node behavior)) := by
  have hmade := Option.some.inj ((call?_of_behavior ht hb).symm.trans hc)
  have hverdict : call.verdict = (m.answered node behavior).1.1 := by rw [← hmade]
  have hturn : call.turn = (m.answered node behavior).2 := by rw [← hmade]
  have withdrawn : ((m.director.observeCall (m.record node)).keep
      (m.answered node behavior).2).withdraw (m.record node) (m.answered node behavior).1.2
        (node.outputs.map (·.active)) error
      = (.failed, m.after node call (m.undone node behavior)) := by
    obtain ⟨n, hn, -⟩ := answered_node? ht behavior
    have hfound : ((m.director.observeCall (m.record node)).keep
        (m.answered node behavior).2).script.node? (m.record node).node = some n := hn
    have hobs : m.observations = [.called (m.record node), .failed (m.record node) error] := by
      simp only [observations, ht, hc, he, Option.map_some, Option.toList_some]
    unfold Director.withdraw
    simp only [hfound]
    rw [after, hobs, hturn]
    rfl
  have ho := outcome_of_behavior ht hb
  unfold Call.error? at he
  rw [hverdict] at he caught
  rcases hv : (m.answered node behavior).1.1 with (failure | text) | latent <;>
    rw [hv] at he caught ho
  · rw [← Option.some.inj he] at withdrawn
    exact ho.trans withdrawn
  · have hcatch : ((m.director.observeCall (m.record node)).keep
        (m.answered node behavior).2).config.catchPanics = true := caught text rfl
    rw [← Option.some.inj he] at withdrawn
    rw [Director.settle, if_pos hcatch] at ho
    exact ho.trans withdrawn
  · cases he

/-- What a failed call has left: of the script it changed the values of its node and of the cells
bound to it, of the director besides it only what was told, recorded, sent and noted. -/
structure Withdrawn (m : Moment β) (call : Call β) (after : Director β) : Prop where
  /-- The pulses of every output are as before, whoever made them. -/
  pulses (ref : OutputRef) : after.script.output? ref = m.director.script.output? ref
  /-- The behavior is back, with the private state that the call left it in. -/
  back : ∃ node behavior, m.target? = some node ∧ node.behavior = some behavior
    ∧ after.script.behavior? m.activation.node = some (m.answered node behavior).1.2
  others (id : NodeId) : id ≠ m.activation.node →
    after.script.behavior? id = m.director.script.behavior? id
  spares : Script.Spares (Eq m.activation.node) m.director.script after.script
  /-- What the call wrote stays. -/
  written : ∃ book : Node β → Node β, (∀ n : Node β, n.Booked (book n))
    ∧ after.script = call.turn.script.modifyNode m.activation.node book
  director : ∃ node, after = m.after node call after.script

theorem undone_pulses {m : Moment β} {node : Node β} (ht : m.target? = some node) (behavior : β)
    (ref : OutputRef) : (m.undone node behavior).output? ref = m.director.script.output? ref := by
  obtain ⟨hn, -⟩ := target?_eq_some.1 ht
  obtain ⟨n, hfound, hsame⟩ := answered_node? ht behavior
  rw [Script.output?, undone, Script.node?_modifyNode _ _ fun n => n.id_setBack _ _,
    Script.output?]
  split
  · rename_i heq
    rw [heq, hfound, hn, Option.map_some, Option.bind_some, Option.bind_some, Node.setBack,
      restoreActive_eq (Node.outputs_of_skeleton hsame)]
  · rename_i hne
    rcases hold : m.director.script.node? ref.node with _ | old
    · rcases hnew : (m.answered node behavior).2.script.node? ref.node with _ | new
      · rfl
      · obtain ⟨_, hlive, -⟩ := Script.node?_of_skeleton (m.answered_skeleton node behavior) hnew
        rw [hold] at hlive
        cases hlive
    · obtain ⟨_, hnew, ⟨properties, rfl, -⟩, -⟩ :=
        (m.answered_spares node behavior).node ref.node old hold fun heq => hne heq.symm
      rw [hnew]
      rfl

theorem withdrawn_undone {m : Moment β} {node : Node β} {behavior : β} {call : Call β}
    (ht : m.target? = some node) (hb : node.behavior = some behavior)
    (hc : m.call? = some call) :
    m.Withdrawn call (m.after node call (m.undone node behavior)) := by
  obtain ⟨n, hfound, -⟩ := answered_node? ht behavior
  have booked : ∀ n : Node β, n.Booked (n.setBack (m.answered node behavior).1.2
      (node.outputs.map (·.active))) := fun n => n.booked_setBack _ _
  have hbehavior : ∀ id, (m.undone node behavior).behavior? id =
      if id = m.activation.node then some (m.answered node behavior).1.2
      else (m.answered node behavior).2.script.behavior? id := by
    intro id
    have hback : (m.undone node behavior).behavior? id = _ :=
      Script.behavior?_modifyNode _ m.activation.node (fun n => n.id_setBack _ _)
        (fun n => (rfl : (n.setBack (m.answered node behavior).1.2 _).behavior = some _)) id
    rw [hback, hfound, Option.bind_some]
  refine ⟨undone_pulses ht behavior, ⟨node, behavior, ht, hb, ?_⟩, fun id hid => ?_, ?_,
    ⟨_, booked, ?_⟩, node, rfl⟩
  · exact (hbehavior _).trans (if_pos rfl)
  · exact (hbehavior id).trans ((if_neg hid).trans (m.answered_behavior? node behavior hid))
  · exact (m.answered_spares node behavior).trans (.modifyNode _ rfl fun n => (booked n).skeleton)
  · rw [← Option.some.inj ((call?_of_behavior ht hb).symm.trans hc)]
    rfl

end Moment

namespace Drain

/-- The tick goes on from one state to another. -/
abbrev GoesOn : Drain β → Drain β → Prop :=
  Relation.ReflTransGen fun drain next => drain.step = .inl next

/-- The moments after a step, at most `fuel` steps. -/
def remaining (drain : Drain β) (fuel : Nat) : List (Moment β) :=
  match drain.step with
  | .inl next => next.history fuel
  | .inr _ => []

/-- Where a moment is in the history is a state of the tick, from which the rest of the tick is
still to come. -/
theorem split_history : ∀ (fuel : Nat) (drain : Drain β) {earlier later : List (Moment β)}
    {m : Moment β}, drain.history fuel = earlier ++ m :: later →
      ∃ before rest left, drain.GoesOn before ∧ before.next? = some (m.activation, rest)
        ∧ m = rest.moment m.activation ∧ later = before.remaining left
        ∧ drain.run fuel = before.run (left + 1)
  | 0, drain, earlier, later, m, h => by simp [history] at h
  | fuel + 1, drain, earlier, later, m, h => by
    have further {earlier : List (Moment β)} (h : drain.remaining fuel = earlier ++ m :: later) :
        ∃ before rest left, drain.GoesOn before ∧ before.next? = some (m.activation, rest)
          ∧ m = rest.moment m.activation ∧ later = before.remaining left
          ∧ drain.run (fuel + 1) = before.run (left + 1) := by
      unfold remaining at h
      split at h
      · rename_i next hs
        obtain ⟨before, rest, left, hgoes, hn, hm, hlater, hrun⟩ := split_history fuel next h
        refine ⟨before, rest, left, .head hs hgoes, hn, hm, hlater, ?_⟩
        rw [← hrun, run, hs]
      · simp at h
    have hhistory : drain.history (fuel + 1) =
        (drain.next?.map fun taken => taken.2.moment taken.1).toList ++ drain.remaining fuel := rfl
    rw [hhistory] at h
    rcases hn : drain.next? with _ | ⟨a, rest⟩ <;> rw [hn] at h
    · exact further h
    · rw [Option.map_some, Option.toList_some, List.singleton_append] at h
      rcases earlier with _ | ⟨first, earlier⟩
      · obtain ⟨rfl, rfl⟩ := List.cons.inj h
        exact ⟨drain, rest, fuel, .refl, hn, rfl, rfl, rfl⟩
      · exact further (List.cons.inj h).2

theorem config_of_step {drain next : Drain β} (h : drain.step = .inl next) :
    next.director.config = drain.director.config := by
  rcases hn : drain.next? with _ | ⟨a, rest⟩
  · rcases step_of_next?_none hn with ⟨stack, -, hstep⟩ | ⟨-, -, hstep⟩ <;> rw [hstep] at h <;>
      cases h
    rfl
  · rw [step_of_next?_some hn] at h
    rw [(handles_of_handle h).unbroken.2, (next?_eq_some hn).1]

theorem GoesOn.config {drain last : Drain β} (h : drain.GoesOn last) :
    last.director.config = drain.director.config := by
  induction h with
  | refl => rfl
  | tail _ hs ih => exact (config_of_step hs).trans ih

end Drain

namespace Director

/-- A failed call, or one that panicked where panics are caught, is contained. The tick was in some
state when its activation was popped, and goes on from there with whatever waits behind it: the
stack, the wave and both queues are as they were, and nothing that the call scheduled is in them.
Every output has the pulses that it had before the call, and every behavior is in place. -/
theorem failures_contained {director : Director β} {fuel : Nat} {sim real : Float}
    {earlier later : List (Moment β)} {m : Moment β} {call : Call β} {error : NodeError}
    (handled : director.history fuel sim real = earlier ++ m :: later)
    (made : m.call? = some call) (failed : call.error? = some error)
    (caught : ∀ text, call.verdict = .error (.panicked text) →
      director.config.catchPanics = true) :
    ∃ before rest next left, (director.begin sim real).GoesOn before
      ∧ before.next? = some (m.activation, rest) ∧ m = rest.moment m.activation
      ∧ before.step = .inl next ∧ later = next.history left
      ∧ next.stack = rest.stack ∧ next.wave = rest.wave
      ∧ next.director.nextWave = before.director.nextWave
      ∧ next.director.injected = before.director.injected
      ∧ m.carried = [] ∧ m.entered = []
      ∧ next.report = { rest.deepened with
        invoked := rest.report.invoked + 1, failed := rest.report.failed + 1 }
      ∧ m.Withdrawn call next.director := by
  rcases hfault : director.fault with _ | reason
  · rw [history_of_fault hfault] at handled
    obtain ⟨before, rest, left, hgoes, hn, hm, hlater, -⟩ := Drain.split_history _ _ handled
    obtain ⟨node, behavior, ht, hb, -, -⟩ := Moment.call?_eq_some made
    have hdirector : m.director = before.director := by
      rw [hm, Drain.moment, (Drain.next?_eq_some hn).1]
    have hconfig : m.director.config = director.config :=
      (congrArg Director.config hdirector).trans hgoes.config
    have ho := Moment.outcome_of_error ht hb made failed fun text hv => hconfig ▸ caught text hv
    have hstep : before.step
        = .inl (rest.passOver (m.after node call (m.undone node behavior))) := by
      rw [Drain.step_of_next?_some hn, Drain.handle_eq, ← hm, ho]
    obtain ⟨hcarried, hentered⟩ := Moment.scheduled_of_error made failed
    refine ⟨before, rest, _, left, hgoes, hn, hm, hstep, ?_, rfl, rfl,
      (congrArg Director.nextWave hdirector :), (congrArg Director.injected hdirector :), hcarried,
      hentered, rfl, Moment.withdrawn_undone ht hb made⟩
    rw [hlater, Drain.remaining, hstep]
  · simp [history, hfault] at handled

end Director

end calls

namespace Director

/-- A node that pulses, opens frames, starts an event, writes and sends before it fails. -/
def troubleNode : NodeBuilder Agent :=
  ((NodeBuilder.action (coreType "Trouble") (.rules [{
    steps := [⟨"pulse", .activate "Out", false⟩, ⟨"push", .pushOutput "Out", false⟩,
      ⟨"resume", .resume, false⟩, ⟨"start", .remote "ping" none, false⟩,
      ⟨"write", .setProperty "Tried" (.bool true), false⟩, ⟨"send", .send "help" [], false⟩,
      ⟨"fail", .fail "in trouble", false⟩] }] 0)).input "In").output "Out"

/-- An event that answers to a ping. -/
def pingNode : NodeBuilder Agent :=
  (NodeBuilder.event remoteEventType (.standard .fireOutputs)).property eventNameProperty
    (.string "ping")

/-- How a host comes to call a node that fails, with a pulse of its own at the output, and then a
relay. -/
def troubling : List (Move Agent) :=
  [.edit (.addNode rootGraph troubleNode), .edit (.addNode rootGraph Script.relayNode),
    .edit (.addNode rootGraph pingNode), .edit (.connect ⟨⟨0⟩, 0⟩ ⟨⟨1⟩, 0⟩),
    .edit (.activateOutput ⟨0⟩ 0), .enqueue { node := ⟨0⟩, input := some 0 },
    .enqueue { node := ⟨1⟩, input := some 0 }]

/-- The director that is about to call both. -/
def troubled : Director Agent :=
  troubling.foldl move { script := .withRootName "root", bridge := .recording {} }

/-- The tick goes on with the relay, and the pulse of the host is all that is at the output. -/
theorem failures_contained_of_troubled :
    ∃ (m : Moment Agent) (later : List (Moment Agent)) (next : Drain Agent) (left : Nat),
    troubled.history 3 0 0 = m :: later ∧ m.activation = { node := ⟨0⟩, input := some 0 }
      ∧ later = next.history left
      ∧ later.map (·.activation) = [{ node := ⟨1⟩, input := some 0 }]
      ∧ next.director.nextWave = m.director.nextWave
      ∧ (next.director.script.output? ⟨⟨0⟩, 0⟩).map (·.active) = some 1 := by
  have hc : (troubled.history 3 0 0).map (fun m => (m.activation, m.call?.map (·.error?),
      (m.director.script.output? ⟨⟨0⟩, 0⟩).map (·.active))) = [
        ({ node := ⟨0⟩, input := some 0 }, some (some (.custom "in trouble")), some 1),
        ({ node := ⟨1⟩, input := some 0 }, some none, some 1)] := by
    decide +kernel
  obtain ⟨m, later, hhistory, hm, hlater⟩ := List.map_eq_cons_iff.1 hc
  obtain ⟨hactivation, hm⟩ := Prod.mk.inj hm
  obtain ⟨hcall, hactive⟩ := Prod.mk.inj hm
  obtain ⟨call, made, failed⟩ := Option.map_eq_some_iff.1 hcall
  have hrest := congrArg (List.map Prod.fst) hlater
  rw [List.map_map] at hrest
  have hsplit : troubled.history 3 0 0 = [] ++ m :: later := hhistory
  obtain ⟨before, rest, next, left, -, hn, hrm, -, hnext, -, -, hqueue, -, -, -, -, hwithdrawn⟩ :=
    failures_contained hsplit made failed fun _ _ => by decide +kernel
  have hdirector : m.director = before.director := by
    rw [hrm, Drain.moment, (Drain.next?_eq_some hn).1]
  refine ⟨m, later, next, left, hhistory, hactivation, hnext, hrest, ?_, ?_⟩
  · rw [hqueue, hdirector]
  · rw [hwithdrawn.pulses, hactive]

end Director

end FlowScript
