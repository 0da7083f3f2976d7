import FlowScript.Proofs.Countdown
import FlowScript.Proofs.Frames
import FlowScript.Proofs.Stale
import FlowScript.Proofs.Watching

/-!
# What waits for a delay

A delay that asks to be called again waits for the next tick (`Moment.Returns.carries`), and what
waits for a node that can take it is handled by a call of it then (`Tick.Happened.called`). What
holds of a run of a host as long as a node is there is shown move by move and tick by tick
(`Director.Run.along`).
-/

namespace FlowScript

variable {β : Type} [Behavior β]

namespace Moment

variable {m : Moment β} {id : NodeId}

/-- What a call carries over is fresh, or it is its own activation resumed. -/
theorem countP_carried {call : Call β} {latent : Bool} (hc : m.call? = some call)
    (hv : call.verdict = .ok latent) (id : NodeId) :
    m.carried.countP (·.Continues id)
      = if latent = true ∧ m.activation.resumed.Continues id then 1 else 0 := by
  have hfresh {list : List Activation} (h : ∀ a ∈ list, a.first = true) :
      list.countP (·.Continues id) = 0 := by
    refine List.countP_eq_zero.2 fun a ha hcontinues => ?_
    obtain ⟨-, hfirst, -⟩ := of_decide_eq_true hcontinues
    rw [h a ha] at hfirst
    cases hfirst
  have hfired : ∀ a ∈ (if m.depth = 0 ∧ call.turn.frames = [] then call.turn.fired else []),
      a.first = true := by
    intro a ha
    split at ha
    · exact Turn.first_of_fired ha
    · cases ha
  rw [carried_of_ok hc hv, List.countP_append, List.countP_append, hfresh hfired,
    hfresh (List.forall_mem_map.2 fun _ _ => rfl)]
  cases latent <;> simp [List.countP_cons]

theorem carried_of_idle (h : m.isInvoked = false) : m.carried = [] := by
  rw [isInvoked, Option.isSome_eq_false_iff, Option.isNone_iff_eq_none] at h
  rw [carried, h]

theorem countP_carried_apart (h : m.activation.node ≠ id) :
    m.carried.countP (·.Continues id) = 0 := by
  rcases hc : m.call? with _ | call
  · rw [carried_of_idle (by rw [isInvoked, hc, Option.isSome_none])]
    rfl
  rcases hv : call.verdict with stop | latent
  · obtain ⟨verdict, turn, found⟩ := call
    subst hv
    rw [carried, hc]
    rfl
  · rw [countP_carried hc hv, if_neg fun hcontinues => h hcontinues.2.1]

/-- A call of a delay that wants to be called again is carried over. -/
theorem Returns.carries {pulses : List Nat} (h : m.Returns true pulses)
    (start : m.activation.OnStart) :
    ∃ a ∈ m.carried, a.Continues m.activation.node := by
  obtain ⟨call, hc, hv, -⟩ := h.call
  refine ⟨m.activation.resumed, ?_, rfl, rfl, start⟩
  rw [carried_of_ok hc hv]
  exact List.mem_append_left _ (List.mem_append_left _ List.mem_cons_self)

end Moment

/-! ## In one tick -/

namespace Director

variable {director after : Director β} {fuel : Nat} {sim real : Float}

theorem skeleton_of_mem_history {m : Moment β} (h : m ∈ director.history fuel sim real) :
    m.director.script.skeleton = director.script.skeleton :=
  (keeps_update (P := fun script => script.skeleton = director.script.skeleton)
    (fun m hs => (Script.skeleton_lasting.outcome m).trans hs) rfl fuel sim real).2 m h

end Director

theorem Drain.clock_of_run {fuel : Nat} {drain : Drain β} {report : Report} {after : Director β}
    (h : drain.run fuel = some (.ok report, after)) :
    ∀ m ∈ drain.history fuel, m.director.clock = drain.director.clock := by
  refine run_induction (motive := fun drain history _ _ =>
    ∀ m ∈ history, m.director.clock = drain.director.clock) ?_ ?_ ?_ _ _ _ _ h
  · exact fun _ _ _ _ _ _ => List.forall_mem_nil _
  · exact fun _ _ _ _ _ _ ih => ih
  · intro drain rest next a history report after hn hh ih
    have hclock := congrArg Director.clock (next?_eq_some hn).1
    refine List.forall_mem_cons.2 ⟨hclock, fun m hm => ?_⟩
    exact (ih m hm).trans (hh.report.1.trans hclock)

namespace Tick

variable {tick : Tick β}

/-- The calls of a node in a tick. -/
def calls (id : NodeId) (tick : Tick β) : List (Moment β) :=
  Moment.callsOf id (tick.before.history tick.fuel tick.sim tick.real)

theorem node_of_mem_calls {m : Moment β} {id : NodeId} (h : m ∈ tick.calls id) :
    m.activation.node = id :=
  (of_decide_eq_true (List.mem_filter.1 h).2).1

theorem node_of_mem_flatMap {ticks : List (Tick β)} {m : Moment β} {id : NodeId}
    (h : m ∈ ticks.flatMap (calls id)) : m.activation.node = id := by
  obtain ⟨tick, -, hm⟩ := List.mem_flatMap.1 h
  exact node_of_mem_calls hm

namespace Happened

theorem clock (h : tick.Happened) :
    tick.after.clock = tick.before.clock.advance tick.sim tick.real
      ∧ ∀ id, ∀ m ∈ tick.calls id, m.director.clock = tick.after.clock := by
  obtain ⟨hrun, hhistory⟩ := Director.run_of_update h
  have hafter : tick.after.clock = tick.before.clock.advance tick.sim tick.real :=
    (Drain.sums_of_run hrun).2
  refine ⟨hafter, fun id m hm => ?_⟩
  have hmem := List.mem_of_mem_filter hm
  rw [hhistory] at hmem
  exact (Drain.clock_of_run hrun m hmem).trans hafter.symm

/-- What waits for a node that can take it is handled by a call of the node. -/
theorem called (h : tick.Happened) {a : Activation} {node : Node β} (ha : a ∈ tick.before.queued)
    (hn : tick.before.script.node? a.node = some node) (accepts : node.accepts a.input = true) :
    ∃ m ∈ tick.calls a.node, m.activation = a := by
  have hbalanced := h.balanced
  obtain ⟨m, hm, hactivation⟩ := List.mem_map.1
    (hbalanced.handled.mem_iff.2 (List.mem_append_left _ ha))
  refine ⟨m, List.mem_filter.2 ⟨hm, ?_⟩, hactivation⟩
  have htarget : m.target?.isSome = true := by
    obtain ⟨node', hn', hsame⟩ :=
      Script.node?_of_skeleton (Director.skeleton_of_mem_history hm).symm hn
    rw [Option.isSome_iff_exists]
    refine ⟨node', Moment.target?_eq_some.2 ⟨by rw [hactivation]; exact hn', ?_⟩⟩
    rw [hactivation, Node.accepts_of_skeleton hsame.symm]
    exact accepts
  simp [hactivation, (hbalanced.accepted m hm).2.2 (Moment.isSome_target?.1 htarget)]

/-- What waits for a delay after a tick is what its calls carried over. -/
theorem countP_queued (h : tick.Happened) (id : NodeId) :
    tick.after.queued.countP (·.Continues id)
      = ((tick.calls id).flatMap Moment.carried).countP (·.Continues id) := by
  rw [h.queued, carried, calls]
  induction tick.before.history tick.fuel tick.sim tick.real with
  | nil => rfl
  | cons m history ih =>
    have hcalls : Moment.callsOf id (m :: history)
        = Moment.callsOf id [m] ++ Moment.callsOf id history := Moment.callsOf_append id [m] history
    rw [hcalls, List.flatMap_cons, List.flatMap_append, List.countP_append, List.countP_append, ih]
    congr 1
    by_cases hid : m.activation.node = id
    · rcases hi : m.isInvoked with _ | _
      · rw [Moment.callsOf_idle hi, Moment.carried_of_idle hi]
        rfl
      · subst hid
        rw [Moment.callsOf_self hi, List.flatMap_singleton]
    · rw [Moment.callsOf_apart hid, Moment.countP_carried_apart hid]
      rfl

end Happened

end Tick

/-! ## In a run -/

namespace Director

omit [Behavior β] in
theorem clock_move (director : Director β) (move : Move β) :
    (director.move move).clock = director.clock := by
  cases move with
  | enqueue activation =>
    obtain ⟨more, h⟩ := director.enqueue_injects activation
    rw [Director.move, h, inject]
  | triggerInput graph node input =>
    obtain ⟨more, h⟩ := director.triggerInput_injects graph node input
    rw [Director.move, h, inject]
  | _ => rfl

variable {start director : Director β} {injected : List Activation} {ticks : List (Tick β)}

theorem Run.ages (run : start.Run injected ticks director) :
    start.script.Ages director.script := by
  induction run with
  | begin => exact .refl _
  | move move run ih => exact ih.trans (ages_move _ move)
  | tick tick run happened ih =>
    exact ih.trans (.of_skeleton (Script.skeleton_lasting.update happened))

/-- What holds at first of a node that is there at the end, and is kept by each move that leaves the
node there and by each tick, holds before each tick of a run and at its end. -/
theorem Run.along {I : List (Tick β) → Director β → Prop} {id : NodeId}
    (given : id.raw < start.script.nextNode) (run : start.Run injected ticks director)
    (stays : director.script.containsNode id = true) (begin : I [] start)
    (move : ∀ ticks (director : Director β) (move : Move β),
      (director.move move).script.containsNode id = true → I ticks director →
        I ticks (director.move move))
    (tick : ∀ ticks (tick : Tick β), tick.Happened → I ticks tick.before →
      I (ticks ++ [tick]) tick.after) :
    I ticks director
      ∧ ∀ earlier tick later, ticks = earlier ++ tick :: later → I earlier tick.before := by
  -- An id that was given away is not given to another node, so the node was there all the time.
  have stayed {before after : Director β} {injected : List Activation} {ticks : List (Tick β)}
      (run : start.Run injected ticks before) (ages : before.script.Ages after.script)
      (stays : after.script.containsNode id = true) : before.script.containsNode id = true := by
    rcases hn : before.script.node? id with _ | node
    · rw [Script.containsNode,
        ages.gone id (Nat.lt_of_lt_of_le given run.ages.nextNode) hn] at stays
      cases stays
    · rw [Script.containsNode, hn, Option.isSome_some]
  induction run with
  | begin => exact ⟨begin, fun earlier tick later h => by simp at h⟩
  | @move injected ticks director next run ih =>
    obtain ⟨hlast, heach⟩ := ih (stayed run (ages_move _ next) stays)
    exact ⟨move _ _ _ stays hlast, heach⟩
  | @tick injected ticks last run happened ih =>
    obtain ⟨hlast, heach⟩ :=
      ih (stayed run (.of_skeleton (Script.skeleton_lasting.update happened)) stays)
    refine ⟨tick _ _ happened hlast, fun earlier tick later h => ?_⟩
    rcases List.eq_nil_or_concat later with rfl | ⟨later, final, rfl⟩
    · obtain ⟨rfl, hsame⟩ := List.append_inj' h rfl
      obtain rfl := List.singleton_inj.1 hsame
      exact hlast
    · rw [List.concat_eq_append, ← List.cons_append, ← List.append_assoc] at h
      exact heach earlier tick later (List.append_inj' h rfl).1

end Director

end FlowScript
