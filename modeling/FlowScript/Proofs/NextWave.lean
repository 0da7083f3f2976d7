import FlowScript.Agent
import FlowScript.Proofs.History

/-!
# The next wave

The next wave is appended to while the drain runs, at every depth. Handling one activation appends
what its call carries over and nothing else (`Handles.nextWave`), so the wave that a tick leaves is
what its calls carried over, one call after another, and the watchers are told of those calls in the
same order.
-/

namespace FlowScript

variable {β : Type} [Behavior β]

namespace Moment

theorem observations_of_target?_none {m : Moment β} (h : m.target? = none) :
    m.observations = [] := by
  simp only [observations, h]

theorem carried_of_discarded {m : Moment β} (h : m.outcome.1 = .discarded) : m.carried = [] :=
  (scheduled_of_target?_none (discarded_iff.1 h)).1

theorem carried_of_failed {m : Moment β} (h : m.outcome.1 = .failed) : m.carried = [] := by
  cases m.handled with
  | discarded target outcome => rw [outcome] at h; cases h
  | halted halt => rw [h] at halt; exact halt.elim
  | failed node call script error target made verdict => exact (scheduled_of_error made verdict).1
  | completed node call script latent target made verdict fate => rw [h] at fate; cases fate

end Moment

namespace Drain

namespace Handles

variable {drain next : Drain β} {a : Activation}

theorem nextWave (h : drain.Handles a next) :
    next.director.nextWave = drain.director.nextWave ++ (drain.moment a).carried := by
  cases h with
  | discarded target =>
    rw [(Moment.scheduled_of_target?_none target).1, List.append_nil]
    rfl
  | failed node call script error target made verdict fate =>
    rw [(Moment.scheduled_of_error made verdict).1, List.append_nil]
    rfl
  | completed node call script latent target made verdict after spent =>
    rw [schedule_director, Moment.carried_of_ok made verdict]
    rfl

theorem injected (h : drain.Handles a next) : next.director.injected = drain.director.injected := by
  cases h with
  | discarded target => rfl
  | failed node call script error target made verdict fate => rfl
  | completed node call script latent target made verdict after spent =>
    rw [schedule_director]
    rfl

theorem seen (h : drain.Handles a next) :
    next.director.seen = drain.director.seen ++ (drain.moment a).observations := by
  cases h with
  | discarded target =>
    rw [Moment.observations_of_target?_none target, List.append_nil]
    rfl
  | failed node call script error target made verdict fate =>
    exact (drain.moment a).seen_after node call script
  | completed node call script latent target made verdict after spent =>
    rw [schedule_director]
    exact (drain.moment a).seen_after node call script

theorem spent (h : drain.Handles a next) {call : Call β} {latent : Bool}
    (hc : (drain.moment a).call? = some call) (hv : call.verdict = .ok latent) :
    (drain.moment a).outcome.2.Spent a.node := by
  cases h with
  | discarded target => simp [Moment.call?, target] at hc
  | failed node call' script error target made verdict fate =>
    rw [Option.some.inj (made.symm.trans hc), Call.error?, hv] at verdict
    cases verdict
  | completed node call' script latent' target made verdict after spent => exact spent

end Handles

theorem forall_mem_history {P : Moment β → Prop}
    (hP : ∀ (drain next : Drain β) a, drain.Handles a next → P (drain.moment a)) {fuel : Nat}
    {drain : Drain β} {report : Report} {after : Director β}
    (h : drain.run fuel = some (.ok report, after)) : ∀ m ∈ drain.history fuel, P m := by
  refine run_induction (motive := fun _ history _ _ => ∀ m ∈ history, P m) ?_ ?_ ?_ _ _ _ _ h
  · intro _ _ _ _ _ _ m hm
    cases hm
  · intro _ _ _ _ _ _ ih
    exact ih
  · intro _ rest next a _ _ _ _ hh ih m hm
    rcases List.mem_cons.1 hm with rfl | hm
    · exact hP rest next a hh
    · exact ih m hm

/-- What a tick leaves in the queues, and what the watchers were told on the way. -/
theorem queues_of_run {fuel : Nat} {drain : Drain β} {report : Report} {after : Director β}
    (h : drain.run fuel = some (.ok report, after)) :
    after.nextWave = drain.director.nextWave ++ (drain.history fuel).flatMap Moment.carried
      ∧ after.injected = drain.director.injected
      ∧ after.seen = drain.director.seen
        ++ (drain.history fuel).flatMap Moment.observations ++ [.tickEnded report] := by
  refine run_induction (motive := fun drain history report after =>
    after.nextWave = drain.director.nextWave ++ history.flatMap Moment.carried
      ∧ after.injected = drain.director.injected
      ∧ after.seen = drain.director.seen ++ history.flatMap Moment.observations
        ++ [.tickEnded report]) ?_ ?_ ?_ _ _ _ _ h
  · intro drain _ _ report after hf
    cases hf
    rw [List.flatMap_nil, List.flatMap_nil, List.append_nil, List.append_nil,
      Director.seen_observe]
    exact ⟨rfl, rfl, rfl⟩
  · intro _ _ _ _ _ _ ih
    exact ih
  · intro drain rest next a history report after hn hh ih
    rw [hh.nextWave, hh.injected, hh.seen, (next?_eq_some hn).1] at ih
    simpa only [List.flatMap_cons, List.append_assoc] using ih

end Drain

namespace Director

/-- The next wave after a tick is what the calls of the tick carried over, in the order in which
they were made. Whatever failed or was discarded carries nothing over, and a call that succeeded
leaves no pulse at its node. -/
theorem nextWave_eq_carried {director after : Director β} {fuel : Nat} {sim real : Float}
    {report : Report} (h : director.update fuel sim real = some (.ok report, after)) :
    after.injected = []
      ∧ after.nextWave = (director.history fuel sim real).flatMap Moment.carried
      ∧ after.seen = director.seen ++ .tickBegan (director.clock.tick + 1)
        :: (director.history fuel sim real).flatMap Moment.observations ++ [.tickEnded report]
      ∧ ∀ m ∈ director.history fuel sim real,
        (m.outcome.1 = .discarded ∨ m.outcome.1 = .failed → m.carried = [])
        ∧ ∀ call latent, m.call? = some call → call.verdict = .ok latent →
          m.outcome.2.Spent m.activation.node := by
  obtain ⟨hrun, hhist⟩ := run_of_update h
  obtain ⟨hnext, hinj, hseen⟩ := Drain.queues_of_run hrun
  rw [hhist]
  refine ⟨hinj, ?_, ?_, ?_⟩
  · rw [hnext]
    rfl
  · have hbegan : (director.begin sim real).director.seen
        = director.seen ++ [.tickBegan (director.clock.tick + 1)] :=
      seen_observe _ _
    rw [hseen, hbegan, List.append_assoc director.seen, List.singleton_append]
  · refine Drain.forall_mem_history (fun drain next a hh => ⟨?_, fun call latent => hh.spent⟩) hrun
    rintro (hd | hf)
    · exact Moment.carried_of_discarded hd
    · exact Moment.carried_of_failed hf

/-- Two activations wait. The first calls a node that opens a frame for a relay, fires the relay as
well, starts an event and wants to be called again; the second calls the relay. -/
def errands : Director Agent where
  script := {
    graphs := [
      { id := rootGraph, name := "root", parent := none, nodes := [⟨0⟩, ⟨1⟩, ⟨2⟩, ⟨3⟩] }]
    nodes := [
      { id := ⟨0⟩, graph := rootGraph, type := coreType "Errand", kind := .action
        inputs := [{ name := "In" }]
        outputs := [
          { name := "Body", connected := [⟨⟨1⟩, 0⟩] }, { name := "Out", connected := [⟨⟨1⟩, 0⟩] }]
        behavior := some (.rules [{
          steps := [⟨"push", .pushOutput "Body", false⟩, ⟨"fire", .activate "Out", false⟩,
            ⟨"start", .remote "ping" none, false⟩]
          latent := true }] 0) },
      { id := ⟨1⟩, graph := rootGraph, type := coreType "Relay", kind := .action
        inputs := [{ name := "In", connected := [⟨⟨0⟩, 0⟩, ⟨⟨0⟩, 1⟩] }]
        outputs := [{ name := "Out", connected := [⟨⟨2⟩, 0⟩] }]
        behavior := some .relay },
      { id := ⟨2⟩, graph := rootGraph, type := coreType "Sink", kind := .action
        inputs := [{ name := "In", connected := [⟨⟨1⟩, 0⟩] }]
        behavior := some (.standard .inert) },
      { id := ⟨3⟩, graph := rootGraph, type := remoteEventType, kind := .event
        properties := [(eventNameProperty, .string "ping")]
        behavior := some (.standard .fireOutputs) }]
    byType := [(coreType "Errand", [⟨0⟩]), (coreType "Relay", [⟨1⟩]), (coreType "Sink", [⟨2⟩]),
      (remoteEventType, [⟨3⟩])]
    nextGraph := 1
    nextNode := 4 }
  injected := [{ node := ⟨0⟩, input := some 0 }, { node := ⟨1⟩, input := some 0 }]

/-- What `errands` leaves for the next tick: what the relay fires inside the frame is not in it. -/
theorem nextWave_of_errands : ∃ report after, errands.update 9 0 0 = some (.ok report, after)
    ∧ after.nextWave = (errands.history 9 0 0).flatMap Moment.carried
    ∧ after.nextWave = [
      { node := ⟨0⟩, input := some 0, first := false }, { node := ⟨3⟩, input := none },
      { node := ⟨1⟩, input := some 0, first := false },
      { node := ⟨1⟩, input := some 0, first := false },
      { node := ⟨1⟩, input := some 0, first := false }, { node := ⟨2⟩, input := some 0 }] := by
  have hw : (errands.update 9 0 0).map (fun ending => (ending.1.toBool, ending.2.nextWave))
      = some (true, [
        { node := ⟨0⟩, input := some 0, first := false }, { node := ⟨3⟩, input := none },
        { node := ⟨1⟩, input := some 0, first := false },
        { node := ⟨1⟩, input := some 0, first := false },
        { node := ⟨1⟩, input := some 0, first := false }, { node := ⟨2⟩, input := some 0 }]) := by
    decide +kernel
  rcases h : errands.update 9 0 0 with _ | ⟨_ | report, after⟩ <;> rw [h] at hw
  · simp at hw
  · simp [Except.toBool] at hw
  · refine ⟨report, after, rfl, (nextWave_eq_carried h).2.1, ?_⟩
    simpa [Except.toBool] using hw

end Director

end FlowScript
