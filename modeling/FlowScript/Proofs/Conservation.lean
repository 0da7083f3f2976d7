import FlowScript.Proofs.Edit
import FlowScript.Proofs.NextWave

/-!
# Every activation is handled once

Handling an activation takes it out of what waits in the tick and adds what its call put into
frames (`Handles.waiting`), so the activations handled in a tick are those that were queued before
it and those that entered frames during it, each once (`handled_of_run`). What does not enter a
frame waits for the next tick, and so over a whole run of a host nothing is lost or doubled either.
-/

namespace FlowScript

variable {β : Type}

/-- One thing that a host does between two ticks. -/
inductive Move (β : Type) where
  | enqueue (activation : Activation)
  | triggerInput (graph : GraphId) (node : NodeId) (input : String)
  | triggerEvent (name : String) (scope : Scope)
  | triggerType (type : TypeId)
  | start
  | edit (change : Edit β)
  | configure (config : Config)

namespace Director

/-- The director that a request results in, which is the old one if the request was refused. -/
def unlessRefused {ε : Type} (director : Director β) : Except ε (Director β) → Director β
  | .ok next => next
  | .error _ => director

/-- The director after a move. -/
def move (director : Director β) : Move β → Director β
  | .enqueue activation => director.unlessRefused (director.enqueue activation)
  | .triggerInput graph node input =>
    director.unlessRefused (director.triggerInput graph node input)
  | .triggerEvent name scope => (director.triggerEvent name scope).2
  | .triggerType type => (director.triggerType type).2
  | .start => director.start.2
  | .edit change => { director with script := director.script.edit change }
  | .configure config => director.withConfig config

/-- The activations that a move injects. -/
def injectedBy (director : Director β) (move : Move β) : List Activation :=
  (director.move move).injected.drop director.injected.length

/-- All activations that wait for the next tick, in the order in which it will take them. -/
def queued (director : Director β) : List Activation := director.nextWave ++ director.injected

theorem length_queued (director : Director β) : director.queued.length = director.pending :=
  List.length_append

theorem inject_nil (director : Director β) : director.inject [] = director := by
  rw [inject, List.append_nil]

theorem enqueue_injects (director : Director β) (activation : Activation) :
    ∃ more, director.unlessRefused (director.enqueue activation) = director.inject more := by
  unfold enqueue
  split
  · exact ⟨_, rfl⟩
  · exact ⟨[], director.inject_nil.symm⟩

theorem triggerInput_injects (director : Director β) (graph : GraphId) (node : NodeId)
    (input : String) : ∃ more,
      director.unlessRefused (director.triggerInput graph node input) = director.inject more := by
  unfold triggerInput
  split
  · exact ⟨[], director.inject_nil.symm⟩
  split
  · exact ⟨[], director.inject_nil.symm⟩
  split
  · exact ⟨[], director.inject_nil.symm⟩
  · exact ⟨_, rfl⟩

/-- A move adds to the queue of injected activations and to nothing else that waits. -/
theorem queued_move (director : Director β) (move : Move β) :
    (director.move move).queued = director.queued ++ director.injectedBy move := by
  have hmove : ∃ more, (director.move move).nextWave = director.nextWave
      ∧ (director.move move).injected = director.injected ++ more := by
    cases move with
    | enqueue activation =>
      obtain ⟨more, h⟩ := director.enqueue_injects activation
      rw [move, h]
      exact ⟨more, rfl, rfl⟩
    | triggerInput graph node input =>
      obtain ⟨more, h⟩ := director.triggerInput_injects graph node input
      rw [move, h]
      exact ⟨more, rfl, rfl⟩
    | triggerEvent name scope => exact ⟨_, rfl, rfl⟩
    | triggerType type => exact ⟨_, rfl, rfl⟩
    | start => exact ⟨_, rfl, rfl⟩
    | edit change => exact ⟨[], rfl, (List.append_nil _).symm⟩
    | configure config => exact ⟨[], rfl, (List.append_nil _).symm⟩
  obtain ⟨more, hnext, hinj⟩ := hmove
  rw [queued, queued, injectedBy, hnext, hinj, List.drop_left, List.append_assoc]

end Director

variable [Behavior β]

/-! ## One tick -/

namespace Moment

/-- The activation was dropped without a call. -/
def isDiscarded (m : Moment β) : Bool :=
  match m.outcome.1 with
  | .discarded => true
  | _ => false

/-- The behavior of the node was called. -/
def isInvoked (m : Moment β) : Bool := m.call?.isSome

theorem isInvoked_of_made {m : Moment β} {call : Call β} (h : m.call? = some call) :
    m.isInvoked = true := by
  rw [isInvoked, h, Option.isSome_some]

theorem isDiscarded_iff {m : Moment β} : m.isDiscarded = true ↔ m.target? = none := by
  rw [← discarded_iff]
  unfold isDiscarded
  split <;> simp_all

end Moment

namespace Drain

namespace Handles

variable {drain next : Drain β} {a : Activation}

theorem waiting (h : drain.Handles a next) :
    next.waiting.Perm (drain.waiting ++ (drain.moment a).entered) := by
  cases h with
  | discarded target =>
    rw [(Moment.scheduled_of_target?_none target).2, List.append_nil]
    exact .refl _
  | failed node call script error target made verdict fate =>
    rw [(Moment.scheduled_of_error made verdict).2, List.append_nil]
    exact .refl _
  | completed node call script latent target made verdict after spent =>
    rw [Moment.entered_of_ok made verdict]
    exact schedule_waiting _ a (call.effects latent)

theorem wave (h : drain.Handles a next) : next.wave = drain.wave := by
  cases h with
  | discarded target => rfl
  | failed node call script error target made verdict fate => rfl
  | completed node call script latent target made verdict after spent =>
    exact schedule_wave _ a (call.effects latent)

theorem frames (h : drain.Handles a next) :
    next.stack.flatten.Perm (drain.stack.flatten ++ (drain.moment a).entered) := by
  have hwaiting := h.waiting
  rw [Drain.waiting, Drain.waiting, h.wave, List.append_assoc] at hwaiting
  refine (List.perm_append_right_iff drain.wave).1 (hwaiting.trans ?_)
  rw [List.append_assoc]
  exact List.Perm.append_left _ List.perm_append_comm

/-- An activation is called or discarded, never both, and is called exactly if it has a target. -/
theorem isInvoked (h : drain.Handles a next) :
    (drain.moment a).isInvoked = (drain.moment a).target?.isSome
      ∧ (drain.moment a).isDiscarded = !(drain.moment a).isInvoked := by
  cases h with
  | discarded target =>
    have hd := Moment.isDiscarded_iff.2 target
    simp [Moment.isInvoked, Moment.call?, target, hd]
  | failed node call script error target made verdict fate =>
    simp [Moment.isInvoked, Moment.isDiscarded, target, made, fate]
  | completed node call script latent target made verdict after spent =>
    have hd : (drain.moment a).isDiscarded = false := by
      rw [Bool.eq_false_iff, ne_eq, Moment.isDiscarded_iff, target]
      simp
    simp [Moment.isInvoked, target, made, hd]

theorem counts (h : drain.Handles a next) :
    next.report.invoked = drain.report.invoked + (if (drain.moment a).isInvoked then 1 else 0)
      ∧ next.report.discarded
        = drain.report.discarded + (if (drain.moment a).isDiscarded then 1 else 0) := by
  have hi := h.isInvoked
  cases h with
  | discarded target =>
    simp [hi, target, discard, deepened]
  | failed node call script error target made verdict fate =>
    simp [hi, target, passOver, deepened]
  | completed node call script latent target made verdict after spent =>
    rw [schedule_report]
    simp [hi, target, accept, deepened]

end Handles

/-- The activations handled in a tick are those that waited and those that entered frames. -/
theorem handled_of_run {fuel : Nat} {drain : Drain β} {report : Report} {after : Director β}
    (h : drain.run fuel = some (.ok report, after)) :
    ((drain.history fuel).map (·.activation)).Perm
        (drain.waiting ++ (drain.history fuel).flatMap Moment.entered)
      ∧ report.invoked = drain.report.invoked + (drain.history fuel).countP Moment.isInvoked
      ∧ report.discarded = drain.report.discarded + (drain.history fuel).countP Moment.isDiscarded
      ∧ report.carried = after.nextWave.length := by
  refine run_induction (motive := fun drain history report after =>
    (history.map (·.activation)).Perm (drain.waiting ++ history.flatMap Moment.entered)
      ∧ report.invoked = drain.report.invoked + history.countP Moment.isInvoked
      ∧ report.discarded = drain.report.discarded + history.countP Moment.isDiscarded
      ∧ report.carried = after.nextWave.length) ?_ ?_ ?_ _ _ _ _ h
  · intro drain hs hw report after hf
    cases hf
    simp [waiting, hs, hw, Director.observe]
  · intro drain stack history report after hs ih
    rw [waiting, hs, List.flatten_cons, List.nil_append]
    exact ih
  · intro drain rest next a history report after hn hh ih
    obtain ⟨hperm, hinv, hdis, hcar⟩ := ih
    obtain ⟨-, hrep, hwait⟩ := next?_eq_some hn
    obtain ⟨hci, hcd⟩ := hh.counts
    refine ⟨?_, ?_, ?_, hcar⟩
    · rw [hwait, List.map_cons, List.flatMap_cons, List.cons_append, ← List.append_assoc]
      exact (hperm.trans (hh.waiting.append_right _)).cons a
    · rw [hinv, hci, hrep, List.countP_cons]
      omega
    · rw [hdis, hcd, hrep, List.countP_cons]
      omega

end Drain

/-! ## Runs of a host -/

/-- A tick that ended well. -/
structure Tick (β : Type) where
  before : Director β
  fuel : Nat
  sim : Float
  real : Float
  report : Report
  after : Director β

namespace Tick

/-- The activations that were handled, in order. -/
def handled (tick : Tick β) : List Activation :=
  (tick.before.history tick.fuel tick.sim tick.real).map (·.activation)

/-- The activations that entered frames. -/
def entered (tick : Tick β) : List Activation :=
  (tick.before.history tick.fuel tick.sim tick.real).flatMap Moment.entered

/-- The activations that were put into the next wave. -/
def carried (tick : Tick β) : List Activation :=
  (tick.before.history tick.fuel tick.sim tick.real).flatMap Moment.carried

/-- The director was updated as the tick says. -/
def Happened (tick : Tick β) : Prop :=
  tick.before.update tick.fuel tick.sim tick.real = some (.ok tick.report, tick.after)

/-- The books of a tick balance: whatever waited or entered a frame was handled once, either by a
call or by being discarded. -/
structure Balanced (tick : Tick β) : Prop where
  handled : tick.handled.Perm (tick.before.queued ++ tick.entered)
  invoked : tick.report.invoked =
    (tick.before.history tick.fuel tick.sim tick.real).countP Moment.isInvoked
  discarded : tick.report.discarded =
    (tick.before.history tick.fuel tick.sim tick.real).countP Moment.isDiscarded
  total : tick.report.invoked + tick.report.discarded =
    tick.before.pending + tick.entered.length
  carried : tick.after.pending = tick.report.carried
  /-- A call is made exactly for a node that lives, is no cell and has the input. -/
  accepted : ∀ m ∈ tick.before.history tick.fuel tick.sim tick.real,
    m.isDiscarded = !m.isInvoked ∧ (m.isInvoked = true ↔
      ∃ node, m.director.script.node? m.activation.node = some node ∧ node.isValueNode = false
        ∧ ∀ index, m.activation.input = some index → index < node.inputs.length)

theorem countP_isInvoked {history : List (Moment β)}
    (h : ∀ m ∈ history, m.isDiscarded = !m.isInvoked) :
    history.countP Moment.isInvoked + history.countP Moment.isDiscarded = history.length := by
  rw [List.length_eq_countP_add_countP Moment.isInvoked]
  congr 1
  refine List.countP_congr fun m hm => ?_
  simp [h m hm]

theorem Happened.queued {tick : Tick β} (h : tick.Happened) : tick.after.queued = tick.carried := by
  obtain ⟨hrun, hhist⟩ := Director.run_of_update h
  obtain ⟨hnext, hinj, -⟩ := Drain.queues_of_run hrun
  rw [Director.queued, hnext, hinj, carried, hhist]
  exact List.append_nil _

theorem Happened.balanced {tick : Tick β} (h : tick.Happened) : tick.Balanced := by
  obtain ⟨hrun, hhist⟩ := Director.run_of_update h
  obtain ⟨hperm, hinv, hdis, hcar⟩ := Drain.handled_of_run hrun
  have hacc : ∀ m ∈ tick.before.history tick.fuel tick.sim tick.real,
      m.isInvoked = m.target?.isSome ∧ m.isDiscarded = !m.isInvoked := by
    rw [hhist]
    exact Drain.forall_mem_history (fun drain next a hh => hh.isInvoked) hrun
  have hinv : tick.report.invoked =
      (tick.before.history tick.fuel tick.sim tick.real).countP Moment.isInvoked := by
    rw [hhist, hinv]
    exact Nat.zero_add _
  have hdis : tick.report.discarded =
      (tick.before.history tick.fuel tick.sim tick.real).countP Moment.isDiscarded := by
    rw [hhist, hdis]
    exact Nat.zero_add _
  have hhandled : tick.handled.Perm (tick.before.queued ++ tick.entered) := by
    rw [handled, entered, hhist]
    exact hperm
  refine ⟨hhandled, hinv, hdis, ?_, ?_, fun m hm => ⟨(hacc m hm).2, ?_⟩⟩
  · rw [hinv, hdis, countP_isInvoked fun m hm => (hacc m hm).2, ← Director.length_queued,
      ← List.length_append, ← hhandled.length_eq, handled, List.length_map]
  · rw [← Director.length_queued, h.queued, hcar, carried, hhist, (Drain.queues_of_run hrun).1]
    rfl
  · rw [(hacc m hm).1, Moment.isSome_target?]

end Tick

namespace Director

/-- A run of a host: the moves that it made and the ticks that it took, from `start` on, with the
activations that its moves injected. -/
inductive Run (start : Director β) : List Activation → List (Tick β) → Director β → Prop where
  | begin : Run start [] [] start
  | move {injected : List Activation} {ticks : List (Tick β)} {director : Director β}
      (move : Move β) (run : Run start injected ticks director) :
      Run start (injected ++ director.injectedBy move) ticks (director.move move)
  | tick {injected : List Activation} {ticks : List (Tick β)} (tick : Tick β)
      (run : Run start injected ticks tick.before) (happened : tick.Happened) :
      Run start injected (ticks ++ [tick]) tick.after

theorem Run.happened {start director : Director β} {injected : List Activation}
    {ticks : List (Tick β)} (h : start.Run injected ticks director) :
    ∀ tick ∈ ticks, tick.Happened := by
  induction h with
  | begin => simp
  | move move run ih => exact ih
  | tick tick run happened ih =>
    intro t ht
    rcases List.mem_append.1 ht with ht | ht
    · exact ih t ht
    · rw [List.mem_singleton.1 ht]
      exact happened

/-- Over a whole run, what was handled or still waits is what waited at first, was injected, entered
a frame or was carried over. -/
theorem Run.conserved {start director : Director β} {injected : List Activation}
    {ticks : List (Tick β)} (h : start.Run injected ticks director) :
    (ticks.flatMap Tick.handled ++ director.queued).Perm
      (start.queued ++ injected ++ ticks.flatMap Tick.entered ++ ticks.flatMap Tick.carried) := by
  induction h with
  | begin => simp
  | move move run ih =>
    rw [queued_move, ← List.append_assoc]
    refine (ih.append_right _).trans ?_
    rw [List.perm_iff_count]
    intro a
    simp only [List.count_append]
    omega
  | tick tick run happened ih =>
    -- What was queued before the tick is on both sides, as handled and as not yet handled.
    have hbal := happened.balanced.handled
    rw [List.perm_iff_count] at ih hbal ⊢
    intro a
    have ha := ih a
    have hb := hbal a
    simp only [happened.queued, List.flatMap_append, List.flatMap_singleton,
      List.count_append] at ha hb ⊢
    omega

/-- In a run of a host every activation is consumed once. In each tick the activations handled are
those that were pending and those that entered frames, each called or discarded; over the run
nothing is lost and nothing doubled. -/
theorem Run.consumed_once {start director : Director β} {injected : List Activation}
    {ticks : List (Tick β)} (h : start.Run injected ticks director) :
    (∀ tick ∈ ticks, tick.Balanced)
      ∧ (ticks.flatMap Tick.handled ++ director.queued).Perm
        (start.queued ++ injected ++ ticks.flatMap Tick.entered ++ ticks.flatMap Tick.carried) :=
  ⟨fun tick ht => (h.happened tick ht).balanced, h.conserved⟩

/-- What the host enqueues behind the two activations of `errands`: its node has no such input. -/
def stray : Move Agent := .enqueue { node := ⟨2⟩, input := some 7 }

/-- Of what is handled after the stray move, the stray activation is the only one discarded. -/
theorem Run.consumed_of_stray : ∃ injected tick, errands.Run injected [tick] tick.after
    ∧ tick.Balanced ∧ tick.report.invoked = 6 ∧ tick.report.discarded = 1
    ∧ ([tick].flatMap Tick.handled ++ tick.after.queued).Perm
      (errands.queued ++ injected ++ [tick].flatMap Tick.entered
        ++ [tick].flatMap Tick.carried) := by
  have hc : ((errands.move stray).update 10 0 0).map
      (fun ending => ending.1.toOption.map fun report => (report.invoked, report.discarded))
        = some (some (6, 1)) := by
    decide +kernel
  rcases h : (errands.move stray).update 10 0 0 with _ | ⟨_ | report, after⟩ <;> rw [h] at hc
  · simp at hc
  · simp [Except.toOption] at hc
  have hcount : report.invoked = 6 ∧ report.discarded = 1 := by
    simpa [Except.toOption] using hc
  have hrun : errands.Run ([] ++ errands.injectedBy stray)
      ([] ++ [⟨errands.move stray, 10, 0, 0, report, after⟩]) after :=
    .tick ⟨errands.move stray, 10, 0, 0, report, after⟩ (.move stray .begin) h
  have hall := Run.consumed_once hrun
  exact ⟨_, _, hrun, hall.1 _ List.mem_cons_self, hcount.1, hcount.2, hall.2⟩

end Director

end FlowScript
