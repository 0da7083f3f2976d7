import FlowScript.Proofs.Reading
import FlowScript.Proofs.Staying

/-!
# One call of a delay

A call of a delay starts its countdown, counts the tick, cancels it or does nothing
(`Moment.Beats`). A tick is not counted twice, and nothing is counted while the countdown does not
run. It is under way before the delay is read, so a call that fails to read it leaves it running.
-/

namespace FlowScript

variable {β : Type}

/-! ## The act of a delay -/

namespace Standard

/-- What a delay does when it is cancelled. -/
def cancelAct : Act Countdown Bool := do
  if (← get).running then
    modify ({ · with running := false })
    Act.fire "Cancelled"
  return false

/-- What a delay does when so many seconds have been counted. -/
def awaitAct (elapsed : Float) : Act Countdown Bool := do
  if (← Act.getFloat "Delay") ≤ elapsed then
    modify ({ · with running := false })
    Act.fire "Out"
    return false
  return true

/-- What a delay does when it is started. -/
def startAct : Act Countdown Bool := do
  let tick ← Act.ask .tick
  set { elapsed := 0, running := true, lastTick := tick : Countdown }
  awaitAct 0

/-- What a delay does when it is resumed. -/
def countAct : Act Countdown Bool := do
  let tick ← Act.ask .tick
  let countdown ← get
  if !countdown.running || tick == countdown.lastTick then return false
  let delta ← Act.ask .simDelta
  set { countdown with elapsed := countdown.elapsed + delta, lastTick := tick }
  awaitAct (countdown.elapsed + delta)

theorem delayAct_eq (input : Option Nat) (first : Bool) : delayAct input first =
    if input = some 1 then cancelAct else if first then startAct else countAct := by
  cases first <;> rfl

section call

variable {turn : Turn β} {node : Node β} {countdown : Countdown} {delay : Float}

/-- The outputs of a delay. -/
structure Rings (node : Node β) : Prop where
  out : node.outputIndex? "Out" = some 0
  cancelled : node.outputIndex? "Cancelled" = some 1
  length : node.outputs.length = 2

theorem rings_of_shape (h : node.shape = delayNode.shape) : Rings node := by
  refine ⟨Node.outputIndex?_of_shape h _, Node.outputIndex?_of_shape h _, ?_⟩
  have hlength := congrArg (fun builder : NodeBuilder Unit => builder.outputs.length) h
  exact (List.length_map _).symm.trans hlength

variable (rings : Rings node) (hn : turn.node? = some node)

include rings hn

theorem cancelAct_running (hc : countdown.running = true) :
    cancelAct.Runs countdown turn (.ok false) { countdown with running := false } (turn.pulse 1).2
      [1] := by
  refine .bind .get ?_
  rw [if_pos hc]
  refine .bind .modify (.bind (.fire hn rings.cancelled ?_) (.pure false))
  rw [rings.length]
  exact Nat.one_lt_two

/-- A countdown that runs is over when the delay has passed. -/
theorem awaitAct_runs (elapsed : Float) (hc : countdown.running = true)
    (hd : (turn.script.property? turn.activation.node "Delay").bind (·.asFloat?) = some delay) :
    ∃ turn' : Turn β, turn'.frames = turn.frames ∧ turn'.signalled = turn.signalled
      ∧ (awaitAct elapsed).Runs countdown turn (.ok (!decide (delay ≤ elapsed)))
        { countdown with running := !decide (delay ≤ elapsed) } turn'
        (if delay ≤ elapsed then [0] else []) := by
  by_cases hle : delay ≤ elapsed
  · rw [if_pos hle, decide_eq_true hle]
    refine ⟨(turn.pulse 0).2, ?_, ?_, .bind (.read hd) ?_⟩
    · rw [Turn.pulse_eq hn]
    · rw [Turn.pulse_eq hn]
    rw [if_pos hle]
    refine .bind .modify (.bind (.fire hn rings.out ?_) (.pure false))
    rw [rings.length]
    exact Nat.two_pos
  · rw [if_neg hle, decide_eq_false hle]
    refine ⟨turn, rfl, rfl, .bind (.read hd) ?_⟩
    rw [if_neg hle, Bool.not_false, ← hc]
    exact .pure _

omit rings hn

theorem awaitAct_unread (elapsed : Float) (countdown : Countdown)
    (hd : (turn.script.property? turn.activation.node "Delay").bind (·.asFloat?) = none) :
    ∃ error, (awaitAct elapsed).Runs countdown turn (.error (.failed error)) countdown turn [] := by
  obtain ⟨error, hread⟩ := Act.Runs.unread hd
  exact ⟨error, hread.stop⟩

theorem startAct_runs {verdict : Verdict} {countdown' : Countdown} {turn' : Turn β}
    {pulses : List Nat}
    (h : (awaitAct 0).Runs { elapsed := 0, running := true, lastTick := turn.clock.tick } turn
      verdict countdown' turn' pulses) :
    startAct.Runs countdown turn verdict countdown' turn' pulses :=
  .bind (.ask .tick) (.bind .set h)

theorem countAct_runs {verdict : Verdict} {countdown' : Countdown} {turn' : Turn β}
    {pulses : List Nat} (hc : countdown.running = true) (ht : countdown.lastTick ≠ turn.clock.tick)
    (h : (awaitAct (countdown.elapsed + turn.clock.simDelta)).Runs
      { countdown with
        elapsed := countdown.elapsed + turn.clock.simDelta, lastTick := turn.clock.tick }
      turn verdict countdown' turn' pulses) :
    countAct.Runs countdown turn verdict countdown' turn' pulses := by
  refine .bind (.ask .tick) (.bind .get ?_)
  rw [if_neg (by simpa [hc, Turn.answer] using Ne.symm ht)]
  exact .bind (.ask .simDelta) (.bind .set h)

/-- A countdown that does not run, or has counted the tick, is left as it is. -/
theorem countAct_stale (h : countdown.running = false ∨ countdown.lastTick = turn.clock.tick) :
    countAct.Runs countdown turn (.ok false) countdown turn [] := by
  refine .bind (.ask .tick) (.bind .get ?_)
  rw [if_pos]
  · exact .pure false
  · rw [Bool.or_eq_true, Bool.not_eq_true', beq_iff_eq]
    exact h.imp id Eq.symm

end call

end Standard

open Standard

/-! ## Calls of a delay -/

namespace Activation

/-- The activation is on `Start` or, as that of an event, on no input. -/
def OnStart (a : Activation) : Prop := a.input = none ∨ a.input = some 0

/-- The activation starts a delay. -/
def Begins (id : NodeId) (a : Activation) : Prop := a.node = id ∧ a.first = true ∧ a.OnStart

/-- The activation resumes a delay that was started. -/
def Continues (id : NodeId) (a : Activation) : Prop := a.node = id ∧ a.first = false ∧ a.OnStart

instance (a : Activation) : Decidable a.OnStart := inferInstanceAs (Decidable (_ ∨ _))

instance (id : NodeId) (a : Activation) : Decidable (a.Begins id) :=
  inferInstanceAs (Decidable (_ ∧ _ ∧ _))

instance (id : NodeId) (a : Activation) : Decidable (a.Continues id) :=
  inferInstanceAs (Decidable (_ ∧ _ ∧ _))

end Activation

/-- A delay takes what is on `Start` and what is on `Cancel`. -/
theorem Standard.accepts_delay {node : Node β} (h : node.shape = delayNode.shape)
    (a : Activation) : node.accepts a.input = true ↔ a.OnStart ∨ a.input = some 1 := by
  have hkind : node.kind = .action := (congrArg NodeBuilder.kind h :)
  have hlength := congrArg (fun builder : NodeBuilder Unit => builder.inputs.length) h
  have htwo : node.inputs.length = 2 := (List.length_map _).symm.trans hlength
  have hplain : node.isValueNode = false := by
    rw [Node.isValueNode, hkind]
    rfl
  rw [Node.accepts, hplain, htwo, Activation.OnStart]
  rcases a.input with _ | index
  · simp
  · simp only [Bool.not_false, Bool.true_and, Option.all_some, decide_eq_true_iff, reduceCtorEq,
      false_or, Option.some.injEq]
    omega

variable [Behavior β] {embed : Standard → β}

theorem Hosts.delays (hosts : Hosts embed) :
    Performs delayAct fun countdown => embed (.delay countdown) :=
  hosts.performs fun _ _ _ => rfl

namespace Moment

/-- The seconds that a delay finds when it reads for how long to wait. -/
def delay? (m : Moment β) : Option Float :=
  (m.director.script.property? m.activation.node "Delay").bind (·.asFloat?)

/-- A call waits for a delay of which some seconds have passed. If the delay is over it pulses
`Out`; otherwise the countdown goes on running, also when the delay cannot be read. -/
inductive Awaits (m : Moment β) (elapsed : Float) : Bool → Prop where
  | read (delay : Float) (reads : m.delay? = some delay)
      (returns : m.Returns (!decide (delay ≤ elapsed)) (if delay ≤ elapsed then [0] else [])) :
      Awaits m elapsed (!decide (delay ≤ elapsed))
  | unread (missing : m.delay? = none) (fails : m.Fails) : Awaits m elapsed true

/-- What a call makes of the countdown of a delay. -/
inductive Beats : Countdown → Moment β → Countdown → Prop where
  | cancelled {countdown : Countdown} {m : Moment β} (cancel : m.activation.input = some 1)
      (running : countdown.running = true) (returns : m.Returns false [1]) :
      Beats countdown m { countdown with running := false }
  | needless {countdown : Countdown} {m : Moment β} (cancel : m.activation.input = some 1)
      (idle : countdown.running = false) (returns : m.Returns false []) :
      Beats countdown m countdown
  | started {countdown : Countdown} {m : Moment β} {after : Bool}
      (start : m.activation.OnStart) (first : m.activation.first = true)
      (awaits : m.Awaits 0 after) :
      Beats countdown m { elapsed := 0, running := after, lastTick := m.director.clock.tick }
  | stale {countdown : Countdown} {m : Moment β} (start : m.activation.OnStart)
      (resumed : m.activation.first = false)
      (idle : countdown.running = false ∨ countdown.lastTick = m.director.clock.tick)
      (returns : m.Returns false []) : Beats countdown m countdown
  | counted {countdown : Countdown} {m : Moment β} {after : Bool}
      (start : m.activation.OnStart) (resumed : m.activation.first = false)
      (running : countdown.running = true)
      (fresh : countdown.lastTick ≠ m.director.clock.tick)
      (awaits : m.Awaits (countdown.elapsed + m.director.clock.simDelta) after) :
      Beats countdown m
        { elapsed := countdown.elapsed + m.director.clock.simDelta
          running := after
          lastTick := m.director.clock.tick }

variable {m : Moment β} {node : Node β} {countdown : Countdown}

/-- What a call makes of a delay whose act begins to wait. -/
theorem awaits_of_runs (hosts : Hosts embed)
    (h : m.director.script.Holds m.activation.node delayNode.shape (embed (.delay countdown)))
    (ht : m.target? = some node) (hb : node.behavior = some (embed (.delay countdown)))
    (elapsed : Float) (waiting : Countdown) (running : waiting.running = true)
    (begins : ∀ (verdict : Verdict) countdown' (turn' : Turn β) pulses,
      (awaitAct elapsed).Runs waiting (m.start node) verdict countdown' turn' pulses →
        (delayAct m.activation.input m.activation.first).Runs countdown (m.start node) verdict
          countdown' turn' pulses) :
    ∃ after, m.Awaits elapsed after ∧ m.outcome.2.script.Holds m.activation.node delayNode.shape
      (embed (.delay { waiting with running := after })) := by
  obtain ⟨hn, -⟩ := target?_eq_some.1 ht
  have hrings : Rings (β := β) { node with behavior := none } := by
    obtain ⟨node', hn', hshape, -⟩ := h
    obtain rfl := Option.some.inj (hn.symm.trans hn')
    exact rings_of_shape hshape
  have hread : ((m.start node).script.property? m.activation.node "Delay").bind (·.asFloat?)
      = m.delay? := congrArg (Option.bind · Property.asFloat?) (property?_start "Delay")
  rcases hd : m.delay? with _ | delay
  · obtain ⟨error, hruns⟩ := awaitAct_unread elapsed waiting (hread.trans hd)
    have hruns := begins _ _ _ _ hruns
    obtain ⟨-, hholds⟩ := h.ran hosts.delays ht hb hruns nofun
    refine ⟨true, .unread hd (fails_of_runs hosts.delays ht hb hruns), ?_⟩
    rwa [← running]
  · obtain ⟨turn', hframes, hsignalled, hruns⟩ :=
      awaitAct_runs hrings (node?_start ht) elapsed running (hread.trans hd)
    have hruns := begins _ _ _ _ hruns
    obtain ⟨-, hholds⟩ := h.ran hosts.delays ht hb hruns nofun
    exact ⟨_, .read delay hd (returns_of_runs hosts.delays ht hb hruns hframes hsignalled), hholds⟩

/-- A call of a delay is one of its beats, and the delay has the countdown then. -/
theorem beats (hosts : Hosts embed)
    (h : m.director.script.Holds m.activation.node delayNode.shape (embed (.delay countdown)))
    (ht : m.target? = some node) : ∃ after, Beats countdown m after
      ∧ m.outcome.2.script.Holds m.activation.node delayNode.shape (embed (.delay after)) := by
  have ⟨node', hn, hshape, hb⟩ := h
  obtain rfl := Option.some.inj ((target?_eq_some.1 ht).1.symm.trans hn)
  have hrings : Rings (β := β) { node with behavior := none } := rings_of_shape hshape
  -- A call that leaves the turn as it began schedules nothing.
  have returns {countdown' : Countdown} {turn' : Turn β} {pulses : List Nat}
      (frames : turn'.frames = []) (signalled : turn'.signalled = [])
      (hruns : (delayAct m.activation.input m.activation.first).Runs countdown (m.start node)
        (.ok false) countdown' turn' pulses) :
      m.Returns false pulses ∧ m.outcome.2.script.Holds m.activation.node delayNode.shape
        (embed (.delay countdown')) :=
    ⟨returns_of_runs hosts.delays ht hb hruns frames signalled,
      (h.ran hosts.delays ht hb hruns nofun).2⟩
  by_cases hinput : m.activation.input = some 1
  · rw [delayAct_eq, if_pos hinput] at returns
    rcases hc : countdown.running with _ | _
    · have hruns : cancelAct.Runs countdown (m.start node) (.ok false) countdown (m.start node)
          [] := .bind .get (by rw [hc]; exact .pure false)
      obtain ⟨hreturns, hholds⟩ := returns rfl rfl hruns
      exact ⟨_, .needless hinput hc hreturns, hholds⟩
    · have hruns := cancelAct_running hrings (node?_start ht) hc
      rw [Turn.pulse_eq (node?_start ht)] at hruns
      obtain ⟨hreturns, hholds⟩ := returns rfl rfl hruns
      exact ⟨_, .cancelled hinput hc hreturns, hholds⟩
  have hstart : m.activation.OnStart :=
    ((accepts_delay hshape m.activation).1 (target?_eq_some.1 ht).2).resolve_right hinput
  rcases hf : m.activation.first with _ | _
  swap
  · obtain ⟨after, hawaits, hholds⟩ := awaits_of_runs hosts h ht hb 0
      { elapsed := 0, running := true, lastTick := m.director.clock.tick } rfl
      (fun _ _ _ _ hruns => by
        rw [delayAct_eq, if_neg hinput, hf]
        exact startAct_runs hruns)
    exact ⟨_, .started hstart hf hawaits, hholds⟩
  by_cases hidle : countdown.running = false ∨ countdown.lastTick = m.director.clock.tick
  · rw [delayAct_eq, if_neg hinput, hf] at returns
    obtain ⟨hreturns, hholds⟩ := returns rfl rfl (countAct_stale hidle)
    exact ⟨_, .stale hstart hf hidle hreturns, hholds⟩
  · rw [not_or, Bool.not_eq_false] at hidle
    obtain ⟨after, hawaits, hholds⟩ := awaits_of_runs hosts h ht hb
      (countdown.elapsed + m.director.clock.simDelta)
      { countdown with
        elapsed := countdown.elapsed + m.director.clock.simDelta
        lastTick := m.director.clock.tick } hidle.1
      (fun _ _ _ _ hruns => by
        rw [delayAct_eq, if_neg hinput, hf]
        exact countAct_runs hidle.1 hidle.2 hruns)
    exact ⟨_, .counted hstart hf hidle.1 hidle.2 hawaits, hholds⟩

theorem Awaits.isInvoked {elapsed : Float} {after : Bool} (h : m.Awaits elapsed after) :
    m.isInvoked = true := by
  cases h with
  | read delay reads returns =>
    obtain ⟨call, hc, -⟩ := returns.call
    exact isInvoked_of_made hc
  | unread missing fails =>
    obtain ⟨call, error, hc, -⟩ := fails.call
    exact isInvoked_of_made hc

theorem Beats.isInvoked {after : Countdown} (h : Beats countdown m after) :
    m.isInvoked = true := by
  cases h with
  | cancelled cancel running returns | needless cancel idle returns
  | stale start resumed idle returns =>
    obtain ⟨call, hc, -⟩ := returns.call
    exact isInvoked_of_made hc
  | started start first awaits => exact awaits.isInvoked
  | counted start resumed running fresh awaits => exact awaits.isInvoked

end Moment

/-- Handling an activation is a beat of a delay if it calls it, and leaves the countdown as it is
otherwise. -/
theorem Script.Holds.beats (hosts : Hosts embed) {m : Moment β} {id : NodeId}
    {countdown : Countdown}
    (h : m.director.script.Holds id delayNode.shape (embed (.delay countdown))) :
    ∃ after, Moment.Chain Moment.Beats countdown (Moment.callsOf id [m]) after
      ∧ m.outcome.2.script.Holds id delayNode.shape (embed (.delay after)) := by
  by_cases hid : m.activation.node = id
  · subst hid
    rcases ht : m.target? with _ | node
    · rw [Moment.callsOf_ignored ht]
      exact ⟨countdown, .nil, h.ignored ht⟩
    · obtain ⟨after, hbeats, hholds⟩ := Moment.beats hosts h ht
      rw [Moment.callsOf_self hbeats.isInvoked]
      exact ⟨after, .single hbeats, hholds⟩
  · rw [Moment.callsOf_apart hid]
    exact ⟨countdown, .nil, h.apart hid⟩

end FlowScript
