import FlowScript.Proofs.Waiting

/-!
# A countdown that is stranded

A countdown that runs waits for the next tick, since each call that leaves it running is carried
over (`Moment.Chain.pending`), unless the call fails. A call that cannot read for how long to wait
leaves the countdown running with nothing queued, and so it stays until the delay is called again.
-/

namespace FlowScript

variable {β : Type} [Behavior β]

open Standard

namespace Moment

variable {countdown after : Countdown} {calls : List (Moment β)} {id : NodeId} {tick : Nat}

/-- The call fails, since it cannot read for how long to wait. -/
def Unread (m : Moment β) : Prop := m.delay? = none ∧ m.outcome.1 = .failed

/-- One of the calls could not read for how long to wait, and whatever was called since was resumed
and did nothing. -/
def Stranded (calls : List (Moment β)) : Prop :=
  ∃ earlier m later, calls = earlier ++ m :: later ∧ m.Unread
    ∧ ∀ m' ∈ later, m'.activation.first = false ∧ m'.activation.OnStart ∧ m'.Returns false []

theorem Stranded.append (h : Stranded calls) (earlier : List (Moment β)) :
    Stranded (earlier ++ calls) := by
  obtain ⟨before, m, later, rfl, unread, idle⟩ := h
  exact ⟨earlier ++ before, m, later, (List.append_assoc _ _ _).symm, unread, idle⟩

theorem Stranded.concat (h : Stranded calls) {m : Moment β} (resumed : m.activation.first = false)
    (start : m.activation.OnStart) (returns : m.Returns false []) : Stranded (calls ++ [m]) := by
  obtain ⟨before, failing, later, rfl, unread, idle⟩ := h
  refine ⟨before, failing, later ++ [m], by rw [List.append_assoc, List.cons_append], unread, ?_⟩
  exact List.forall_mem_append.2 ⟨idle, List.forall_mem_singleton.2 ⟨resumed, start, returns⟩⟩

/-- The calls have the delay wait for the next tick. -/
def Pending (id : NodeId) (calls : List (Moment β)) : Prop :=
  ∃ m ∈ calls, ∃ a ∈ m.carried, a.Continues id

/-- A call that leaves a countdown running has the delay wait for the next tick, or it has failed to
read the delay. -/
theorem Awaits.pending {m : Moment β} {elapsed : Float} (h : m.Awaits elapsed true)
    (start : m.activation.OnStart) (node : m.activation.node = id) (earlier : List (Moment β)) :
    Pending id (earlier ++ [m]) ∨ Stranded (earlier ++ [m]) := by
  generalize hafter : true = after at h
  cases h with
  | read delay reads returns =>
    rw [← hafter] at returns
    obtain ⟨a, ha, hcontinues⟩ := returns.carries start
    exact .inl ⟨m, List.mem_append_right _ List.mem_cons_self, a, ha, node ▸ hcontinues⟩
  | unread missing fails =>
    exact .inr ⟨earlier, m, [], rfl, ⟨missing, fails.fate⟩, List.forall_mem_nil _⟩

/-- After some calls in a tick that had not been counted, a countdown that runs either was not
touched, or it has counted the tick and waits for the next one, or is stranded. -/
theorem Chain.pending (h : Chain Beats countdown calls after)
    (node : ∀ m ∈ calls, m.activation.node = id)
    (clock : ∀ m ∈ calls, m.director.clock.tick = tick)
    (fresh : countdown.running = true → countdown.lastTick ≠ tick)
    (running : after.running = true) :
    calls = [] ∧ after = countdown
      ∨ after.lastTick = tick ∧ (Pending id calls ∨ Stranded calls) := by
  induction calls using List.reverseRecOn generalizing after with
  | nil =>
    cases h
    exact .inl ⟨rfl, rfl⟩
  | append_singleton earlier m ih =>
    rw [List.forall_mem_append, List.forall_mem_singleton] at node clock
    obtain ⟨between, hearlier, hbeats⟩ := h.concat
    cases hbeats with
    | cancelled cancel hrunning returns => cases running
    | needless cancel idle returns =>
      rw [idle] at running
      cases running
    | started start first awaits =>
      obtain rfl : _ = true := running
      exact .inr ⟨clock.2, awaits.pending start node.2 earlier⟩
    | counted start resumed hrunning hfresh awaits =>
      obtain rfl : _ = true := running
      exact .inr ⟨clock.2, awaits.pending start node.2 earlier⟩
    | stale start resumed idle returns =>
      -- The countdown runs, so an earlier call has counted the tick.
      have hlastTick : after.lastTick = tick := by
        rcases idle with idle | hlastTick
        · rw [running] at idle
          cases idle
        · exact hlastTick.trans clock.2
      rcases ih hearlier node.1 clock.1 running with ⟨-, rfl⟩ | ⟨-, hpending | hstranded⟩
      · exact absurd hlastTick (fresh running)
      · obtain ⟨m', hm', hcarried⟩ := hpending
        exact .inr ⟨hlastTick, .inl ⟨m', List.mem_append_left _ hm', hcarried⟩⟩
      · exact .inr ⟨hlastTick, .inr (hstranded.concat resumed start returns)⟩

theorem Awaits.not_cancelled {m : Moment β} {elapsed : Float} {running : Bool}
    (h : m.Awaits elapsed running) : 1 ∉ m.pulsed := by
  cases h with
  | read delay reads returns =>
    rw [returns.pulsed]
    split <;> simp
  | unread missing fails => simp [fails.pulsed]

/-- Only a countdown that runs is cancelled. -/
theorem Beats.of_cancelled {m : Moment β} (h : Beats countdown m after) (pulses : 1 ∈ m.pulsed) :
    m.activation.input = some 1 ∧ countdown.running = true := by
  cases h with
  | cancelled cancel running returns => exact ⟨cancel, running⟩
  | needless cancel idle returns | stale start resumed idle returns =>
    rw [returns.pulsed] at pulses
    cases pulses
  | started start first awaits => exact absurd pulses awaits.not_cancelled
  | counted start resumed running fresh awaits => exact absurd pulses awaits.not_cancelled

end Moment

/-! ## In a run -/

/-- What is known of a delay after the ticks of a run: its calls have led to its countdown, which
has not counted beyond the clock, and if it runs it waits for the next tick or is stranded. -/
structure Director.Delays (embed : Standard → β) (id : NodeId) (first : Countdown)
    (ticks : List (Tick β)) (director : Director β) (countdown : Countdown) : Prop where
  holds : director.script.Holds id delayNode.shape (embed (.delay countdown))
  beats : Moment.Chain Moment.Beats first (ticks.flatMap (Tick.calls id)) countdown
  lastTick : countdown.running = true → countdown.lastTick ≤ director.clock.tick
  waits : countdown.running = true → (∃ a ∈ director.queued, a.Continues id)
    ∨ Moment.Stranded (ticks.flatMap (Tick.calls id))

variable {embed : Standard → β} {id : NodeId} {first countdown : Countdown}

namespace Director.Delays

variable {ticks : List (Tick β)} {director : Director β}

theorem move (h : director.Delays embed id first ticks countdown) (move : Move β)
    (stays : (director.move move).script.containsNode id = true) :
    (director.move move).Delays embed id first ticks countdown := by
  refine ⟨h.holds.move move stays, h.beats, fun hrunning => ?_, fun hrunning => ?_⟩
  · rw [clock_move]
    exact h.lastTick hrunning
  · rcases h.waits hrunning with ⟨a, ha, hcontinues⟩ | hstranded
    · refine .inl ⟨a, ?_, hcontinues⟩
      rw [queued_move]
      exact List.mem_append_left _ ha
    · exact .inr hstranded

variable {tick : Tick β}

/-- Before a tick its number has not been counted. -/
theorem fresh (h : tick.before.Delays embed id first ticks countdown) (happened : tick.Happened)
    (running : countdown.running = true) : countdown.lastTick ≠ tick.after.clock.tick := by
  intro heq
  have hle := h.lastTick running
  rw [heq, happened.clock.1] at hle
  exact Nat.not_succ_le_self _ hle

/-- Once it was called in a tick, a countdown that runs has counted the tick. -/
theorem pending (h : tick.before.Delays embed id first ticks countdown) (happened : tick.Happened)
    {calls : List (Moment β)} {after : Countdown} (called : ∀ m ∈ calls, m ∈ tick.calls id)
    (chain : Moment.Chain Moment.Beats countdown calls after) (running : after.running = true) :
    calls = [] ∧ after = countdown
      ∨ after.lastTick = tick.after.clock.tick
        ∧ (Moment.Pending id calls ∨ Moment.Stranded calls) :=
  chain.pending (fun m hm => Tick.node_of_mem_calls (called m hm))
    (fun m hm => congrArg Clock.tick (happened.clock.2 id m (called m hm))) (h.fresh happened)
    running

/-- A delay for which something waits is called in the next tick. -/
theorem called (h : tick.before.Delays embed id first ticks countdown) (happened : tick.Happened)
    (waits : ∃ a ∈ tick.before.queued, a.Continues id) : tick.calls id ≠ [] := by
  obtain ⟨a, ha, hcontinues⟩ := waits
  obtain ⟨node, hn, hshape, -⟩ := h.holds
  obtain ⟨rfl, -, hstart⟩ := hcontinues
  obtain ⟨m, hm, -⟩ := happened.called ha hn ((accepts_delay hshape a).2 (.inl hstart))
  exact List.ne_nil_of_mem hm

theorem update (hosts : Hosts embed) (happened : tick.Happened)
    (h : tick.before.Delays embed id first ticks countdown) :
    ∃ countdown', Moment.Chain Moment.Beats countdown (tick.calls id) countdown'
      ∧ tick.after.Delays embed id first (ticks ++ [tick]) countdown' := by
  obtain ⟨countdown', hchain, hholds⟩ : ∃ countdown',
      Moment.Chain Moment.Beats countdown (tick.calls id) countdown'
        ∧ tick.after.script.Holds id delayNode.shape (embed (.delay countdown')) :=
    chain_update (Q := fun _ => True)
      (P := fun countdown script => script.Holds id delayNode.shape (embed (.delay countdown)))
      (fun _ _ _ hs => hs.beats hosts) happened (fun _ _ => trivial) h.holds
  have hpending := h.pending happened (fun _ hm => hm) hchain
  have hcalls : (ticks ++ [tick]).flatMap (Tick.calls id)
      = ticks.flatMap (Tick.calls id) ++ tick.calls id := by
    rw [List.flatMap_append, List.flatMap_singleton]
  refine ⟨countdown', hchain, hholds, hcalls ▸ h.beats.append hchain, fun hrunning => ?_,
    fun hrunning => ?_⟩
  · rcases hpending hrunning with ⟨-, rfl⟩ | ⟨hlastTick, -⟩
    · rw [happened.clock.1]
      exact Nat.le_succ_of_le (h.lastTick hrunning)
    · exact Nat.le_of_eq hlastTick
  rw [hcalls]
  rcases hpending hrunning with ⟨hnone, rfl⟩ | ⟨-, hwaiting | hstranded⟩
  · -- Nothing waited for a delay that was not called, so it was stranded before.
    rw [hnone, List.append_nil]
    exact .inr ((h.waits hrunning).resolve_left fun hwaits => h.called happened hwaits hnone)
  · obtain ⟨m, hm, a, ha, hcontinues⟩ := hwaiting
    refine .inl ⟨a, ?_, hcontinues⟩
    rw [happened.queued]
    exact List.mem_flatMap.2 ⟨m, List.mem_of_mem_filter hm, ha⟩
  · exact .inr (hstranded.append _)

end Director.Delays

namespace Director

variable {start director : Director β} {injected : List Activation} {ticks : List (Tick β)}

/-- What holds of a countdown at first, and is kept as the calls of each tick lead from one
countdown to another, holds at the end of a run and before each of its ticks. -/
theorem Run.delays {Q : List (Tick β) → Countdown → Prop} (hosts : Hosts embed)
    (given : id.raw < start.script.nextNode) (run : start.Run injected ticks director)
    (stays : director.script.containsNode id = true)
    (begin : start.script.Holds id delayNode.shape (embed (.delay first)))
    (idle : first.running = false) (initial : Q [] first)
    (step : ∀ ticks (tick : Tick β) countdown after, tick.Happened →
      tick.before.Delays embed id first ticks countdown →
        Moment.Chain Moment.Beats countdown (tick.calls id) after →
          Q ticks countdown → Q (ticks ++ [tick]) after) :
    (∃ countdown, director.Delays embed id first ticks countdown ∧ Q ticks countdown)
      ∧ ∀ earlier tick later, ticks = earlier ++ tick :: later →
        ∃ countdown, tick.before.Delays embed id first earlier countdown ∧ Q earlier countdown := by
  refine run.along (I := fun ticks director => ∃ countdown,
    director.Delays embed id first ticks countdown ∧ Q ticks countdown) given stays
    ⟨first, ⟨begin, .nil, by rw [idle]; nofun, by rw [idle]; nofun⟩, initial⟩ ?_ ?_
  · rintro ticks director move stays ⟨countdown, hdelays, hq⟩
    exact ⟨countdown, hdelays.move move stays, hq⟩
  · rintro ticks tick happened ⟨countdown, hdelays, hq⟩
    obtain ⟨after, hchain, hafter⟩ := hdelays.update hosts happened
    exact ⟨after, hafter, step ticks tick countdown after happened hdelays hchain hq⟩

/-- Between two updates a delay that runs has a resumed activation queued, or it is stranded: a call
could not read for how long to wait, and nothing has happened to the delay since. A call that pulses
`Cancelled` cancels a countdown whose activation still waits, in this tick's wave or, if it was
called in this tick, for the next one, or one that is stranded. -/
theorem Run.waits_or_stranded (hosts : Hosts embed) (given : id.raw < start.script.nextNode)
    (run : start.Run injected ticks director)
    (stays : director.script.containsNode id = true)
    (begin : start.script.Holds id delayNode.shape (embed (.delay first)))
    (idle : first.running = false) :
    (∃ countdown, director.script.Holds id delayNode.shape (embed (.delay countdown))
        ∧ (countdown.running = true → (∃ a ∈ director.queued, a.Continues id)
          ∨ Moment.Stranded (ticks.flatMap (Tick.calls id))))
      ∧ ∀ before tick after earlier m later, ticks = before ++ tick :: after →
        tick.calls id = earlier ++ m :: later → 1 ∈ m.pulsed → m.activation.input = some 1
          ∧ (earlier = [] ∧ (∃ a ∈ tick.before.queued, a.Continues id)
            ∨ Moment.Pending id earlier
            ∨ Moment.Stranded (before.flatMap (Tick.calls id) ++ earlier)) := by
  obtain ⟨⟨countdown, hlast, -⟩, heach⟩ := run.delays (Q := fun _ _ => True) hosts given stays begin
    idle trivial fun _ _ _ _ _ _ _ _ => trivial
  refine ⟨⟨countdown, hlast.holds, hlast.waits⟩, ?_⟩
  intro before tick after earlier m later hticks hcalls hpulses
  obtain ⟨countdown, hbefore, -⟩ := heach before tick after hticks
  have happened := run.happened tick (by
    rw [hticks]
    exact List.mem_append_right _ List.mem_cons_self)
  obtain ⟨_, hchain, -⟩ := hbefore.update hosts happened
  rw [hcalls] at hchain
  obtain ⟨between, hearlier, hlater⟩ := hchain.split
  cases hlater with
  | cons hbeats rest =>
  obtain ⟨hcancel, hrunning⟩ := hbeats.of_cancelled hpulses
  refine ⟨hcancel, ?_⟩
  have hmem : ∀ m ∈ earlier, m ∈ tick.calls id := fun m hm =>
    hcalls ▸ List.mem_append_left _ hm
  rcases hbefore.pending happened hmem hearlier hrunning with ⟨rfl, rfl⟩ | ⟨-, hpending | hstranded⟩
  · rw [List.append_nil]
    exact (hbefore.waits hrunning).imp (fun hwaiting => ⟨rfl, hwaiting⟩) .inr
  · exact .inr (.inl hpending)
  · exact .inr (.inr (hstranded.append _))

/-- A delay that is told in words how long to wait. -/
def vague : Director Standard :=
  [Move.edit (.addNode rootGraph delayNode),
    .edit (.setProperty ⟨0⟩ "Delay" (.string "soon"))].foldl move { script := .withRootName "root" }

/-- An input of the delay is to be triggered. -/
def press (input : String) : Move Standard := .triggerInput rootGraph ⟨0⟩ input

theorem delay_of_vague : vague.script.Holds ⟨0⟩ delayNode.shape (.delay {}) := ⟨_, rfl, rfl, rfl⟩

/-- The delay is started in one tick and cancelled in the next one. -/
theorem ticks_of_vague : ∃ (injected : List Activation) (started cancelled : Tick Standard)
    (m : Moment Standard), vague.Run injected [started, cancelled] cancelled.after
      ∧ cancelled.after.script.containsNode ⟨0⟩ = true
      ∧ cancelled.before.queued = [{ node := ⟨0⟩, input := some 1 }]
      ∧ cancelled.calls ⟨0⟩ = [m] ∧ m.activation.input = some 1 ∧ 1 ∈ m.pulsed := by
  have hstarted : ((vague.move (press "Start")).update 9 0 0).map (fun ended =>
      (ended.1.toBool, (ended.2.move (press "Cancel")).queued))
      = some (true, [{ node := ⟨0⟩, input := some 1 }]) := by
    decide +kernel
  have hcancelled : (((vague.move (press "Start")).update 9 0 0).elim [] fun ended =>
      ((ended.2.move (press "Cancel")).history 9 0 0).map fun m =>
        (m.activation, m.isInvoked, m.pulsed))
      = [({ node := ⟨0⟩, input := some 1 }, true, [1])] := by
    decide +kernel
  have hended : (((vague.move (press "Start")).update 9 0 0).bind fun ended =>
      (ended.2.move (press "Cancel")).update 9 0 0).map (fun ended =>
        (ended.1.toBool, ended.2.script.containsNode ⟨0⟩)) = some (true, true) := by
    decide +kernel
  rcases h : (vague.move (press "Start")).update 9 0 0 with _ | ⟨_ | report, between⟩ <;>
    rw [h] at hstarted hcancelled hended
  · cases hstarted
  · simp [Except.toBool] at hstarted
  rw [Option.elim_some] at hcancelled
  rw [Option.bind_some] at hended
  rcases h' : (between.move (press "Cancel")).update 9 0 0 with _ | ⟨_ | report', after⟩ <;>
    rw [h'] at hended
  · cases hended
  · simp [Except.toBool] at hended
  obtain ⟨-, hqueued⟩ := Prod.mk.inj (Option.some.inj hstarted)
  obtain ⟨-, hstays⟩ := Prod.mk.inj (Option.some.inj hended)
  have pressed : vague.Run _ [] (vague.move (press "Start")) := .move (press "Start") .begin
  have started := pressed.tick ⟨vague.move (press "Start"), 9, 0, 0, report, between⟩ h
  have cancelled := (started.move (press "Cancel")).tick
    ⟨between.move (press "Cancel"), 9, 0, 0, report', after⟩ h'
  obtain ⟨m, hm, hcalled⟩ := List.map_eq_singleton_iff.1 hcancelled
  simp only [Prod.mk.injEq] at hcalled
  obtain ⟨hactivation, hinvoked, hpulsed⟩ := hcalled
  refine ⟨_, _, _, m, cancelled, hstays, hqueued, ?_, by rw [hactivation], by simp [hpulsed]⟩
  simp [Tick.calls, hm, Moment.callsOf, hactivation, hinvoked]

/-- Between the two ticks the delay runs with nothing of it queued, and its `Cancelled` is pulsed
though there is no countdown to cancel. -/
theorem stranded_of_vague : vague.config.catchPanics = true
    ∧ ∃ (injected : List Activation) (started cancelled : Tick Standard) (countdown : Countdown)
      (m : Moment Standard), vague.Run injected [started, cancelled] cancelled.after
        ∧ cancelled.before.script.Holds ⟨0⟩ delayNode.shape (.delay countdown)
        ∧ countdown.running = true ∧ (¬ ∃ a ∈ cancelled.before.queued, a.Continues ⟨0⟩)
        ∧ cancelled.calls ⟨0⟩ = [m] ∧ m.activation.input = some 1 ∧ 1 ∈ m.pulsed := by
  obtain ⟨injected, started, cancelled, m, run, hstays, hqueued, hcalls, hinput, hpulsed⟩ :=
    ticks_of_vague
  obtain ⟨-, heach⟩ := run.delays (Q := fun _ _ => True) Standard.hosts (by decide) hstays
    delay_of_vague rfl trivial fun _ _ _ _ _ _ _ _ => trivial
  obtain ⟨countdown, hbefore, -⟩ := heach [started] cancelled [] rfl
  have happened := run.happened cancelled (by simp)
  obtain ⟨countdown', hchain, -⟩ := hbefore.update Standard.hosts happened
  rw [hcalls] at hchain
  cases hchain with
  | cons hbeats rest =>
  refine ⟨rfl, injected, started, cancelled, countdown, m, run, hbefore.holds,
    (hbeats.of_cancelled hpulsed).2, ?_, hcalls, hinput, hpulsed⟩
  rw [hqueued]
  decide

/-- It was the tick in which the delay was started that stranded it. -/
theorem waits_or_stranded_of_vague : ∃ (injected : List Activation)
    (started cancelled : Tick Standard), vague.Run injected [started, cancelled] cancelled.after
      ∧ Moment.Stranded (started.calls ⟨0⟩) := by
  obtain ⟨injected, started, cancelled, m, run, hstays, hqueued, hcalls, -, hpulsed⟩ :=
    ticks_of_vague
  obtain ⟨-, heach⟩ :=
    run.waits_or_stranded Standard.hosts (by decide) hstays delay_of_vague rfl
  obtain ⟨-, ⟨-, hwaiting⟩ | hpending | hstranded⟩ :=
    heach [started] cancelled [] [] m [] rfl hcalls hpulsed
  · rw [hqueued] at hwaiting
    exact absurd hwaiting (by decide)
  · obtain ⟨m', hm', -⟩ := hpending
    cases hm'
  · refine ⟨injected, started, cancelled, run, ?_⟩
    rwa [List.flatMap_singleton, List.append_nil] at hstranded

end Director

end FlowScript
