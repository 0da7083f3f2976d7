import FlowScript.Behavior.Act
import FlowScript.Director.Basic

/-!
# Ticks

A tick drains one wave of activations, first in first out. What a call fires joins the next wave.
A call that opens frames is followed depth first: its frames are drained before anything else, in
the order in which they were opened, and then what it fired, still in this tick. What a call fires
inside a frame joins that frame.

A failing call never stops the tick: its pulses, frames and signals are withdrawn, and only what it
wrote and sent remains.
-/

namespace FlowScript

/-- What a successful call scheduled. -/
structure Effects where
  /-- Whether the node wants to be called again in the next tick. -/
  latent : Bool
  /-- Activations by pulses. -/
  fired : List Activation
  /-- Frames in the order in which they were opened. -/
  frames : List (List Activation)
  /-- Starts of events. -/
  signalled : List Activation

/-- What became of an activation. -/
inductive Fate where
  /-- Its node or input is gone, or its node is a cell. -/
  | discarded
  /-- The director broke. -/
  | faulted (reason : String)
  /-- A panic was let through. -/
  | unwound (text : Option String)
  /-- The call failed. -/
  | failed
  | completed (effects : Effects)

/-- Why a tick ended early. -/
inductive Halt where
  /-- The director is broken. -/
  | faulted (reason : String)
  /-- A panic was let through. -/
  | unwound (text : Option String)
deriving DecidableEq, Inhabited

namespace OutputLink

/-- Takes at most `limit` pulses, one by one; each calls every connected input. -/
def take : Nat → OutputLink → List Activation × OutputLink
  | 0, link => ([], link)
  | limit + 1, link =>
    match link.test with
    | (true, rest) =>
      let (later, spent) := rest.take limit
      (rest.targets ++ later, spent)
    | (false, rest) => ([], rest)

/-- Takes every pulse. -/
def drain (link : OutputLink) : List Activation × OutputLink := link.take link.active

/-- Enough attempts take every pulse, and none of them twice. -/
theorem take_of_active_le {limit : Nat} {link : OutputLink} (h : link.active ≤ limit) :
    link.take limit =
      ((List.replicate link.active link.targets).flatten, { link with active := 0 }) := by
  induction limit generalizing link with
  | zero =>
    obtain ⟨name, connected, active⟩ := link
    obtain rfl : active = 0 := Nat.le_zero.1 h
    rfl
  | succ limit ih =>
    obtain ⟨name, connected, active⟩ := link
    cases active with
    | zero => rfl
    | succ active =>
      have rest := @ih ⟨name, connected, active⟩ (Nat.le_of_succ_le_succ h)
      simp [take, test, rest, targets, List.replicate_succ]

theorem drain_eq (link : OutputLink) :
    link.drain =
      ((List.replicate link.active link.targets).flatten, { link with active := 0 }) :=
  take_of_active_le (Nat.le_refl _)

end OutputLink

/-- Sets pulse counts back to what they were. -/
def restoreActive : List OutputLink → List Nat → List OutputLink
  | link :: links, n :: ns => { link with active := n } :: restoreActive links ns
  | links, _ => links

namespace Node

variable {β : Type}

/-- Whether the node can be called on an input. -/
def accepts (node : Node β) (input : Option Nat) : Bool :=
  !node.isValueNode && input.all (· < node.inputs.length)

end Node

namespace Director

variable {β : Type} [Behavior β]

/-- The turn of a node whose behavior is out for the call. -/
def turn (director : Director β) (activation : Activation) (graph : GraphId) : Turn β where
  script := director.script.modifyNode activation.node ({ · with behavior := none })
  activation := activation
  graph := graph
  clock := director.clock
  scope := director.config.remoteScope
  bridge := director.bridge
  notes := director.notes

/-- Keeps what a turn changed for good. -/
def keep (director : Director β) (turn : Turn β) : Director β :=
  { director with script := turn.script, bridge := turn.bridge, notes := turn.notes }

/-- Ends a call that succeeded: the behavior goes back and the pulses are taken. -/
def complete (director : Director β) (turn : Turn β) (behavior : β) (latent : Bool) :
    Fate × Director β :=
  match director.script.node? turn.activation.node with
  | none =>
    let reason := turn.activation.node.text ++ " vanished during its update"
    (.faulted reason, director.fail reason)
  | some node =>
    (.completed {
        latent := latent
        fired := node.outputs.flatMap (·.drain.1)
        frames := turn.frames
        signalled := turn.signalled.map fun id => { node := id, input := none } },
      { director with
        script := director.script.modifyNode turn.activation.node fun n =>
          { n with behavior := some behavior, outputs := n.outputs.map (·.drain.2) } })

/-- Ends a call that failed: the behavior goes back and the pulses are as before the call. -/
def withdraw (director : Director β) (record : Record) (behavior : β) (before : List Nat)
    (error : NodeError) : Fate × Director β :=
  match director.script.node? record.node with
  | none =>
    let reason := record.node.text ++ " vanished during its update"
    (.faulted reason, director.fail reason)
  | some _ =>
    let restored := director.script.modifyNode record.node fun n =>
      { n with behavior := some behavior, outputs := restoreActive n.outputs before }
    (.failed, { director with script := restored }.observe (.failed record error))

/-- Ends a call as its verdict says. -/
def settle (director : Director β) (turn : Turn β) (record : Record) (before : List Nat)
    (verdict : Verdict) (behavior : β) : Fate × Director β :=
  match verdict with
  | .ok latent => director.complete turn behavior latent
  | .error (.failed error) => director.withdraw record behavior before error
  | .error (.panicked text) =>
    if director.config.catchPanics then
      director.withdraw record behavior before (.panicked (panicText text))
    else (.unwound text, director)

/-- Handles one activation. `order` is its position in the tick and `depth` the number of open
frames. -/
def invoke (director : Director β) (order depth : Nat) (activation : Activation) :
    Fate × Director β :=
  match director.script.node? activation.node with
  | none => (.discarded, director)
  | some node =>
    if !node.accepts activation.input then (.discarded, director)
    else
      match node.behavior with
      | none =>
        let reason := activation.node.text ++ " has no behavior"
        (.faulted reason, director.fail reason)
      | some behavior =>
        let record : Record := {
          tick := director.clock.tick
          order := order
          graph := node.graph
          node := activation.node
          input := activation.input
          first := activation.first
          depth := depth }
        let watched := director.observeCall record
        let called := (Behavior.react behavior activation.input activation.first).run
          (watched.turn activation node.graph)
        (watched.keep called.2).settle called.2 record (node.outputs.map (·.active))
          called.1.1 called.1.2

end Director

/-- A tick in progress: the rest of the wave, and the open frames with the innermost first. -/
structure Drain (β : Type) where
  director : Director β
  report : Report
  wave : List Activation
  stack : List (List Activation) := []

/-- How a tick ended, and the director after it. -/
abbrev Ending (β : Type) := Except Halt Report × Director β

namespace Drain

variable {β : Type} [Behavior β]

/-- Adds activations to the next wave. -/
def defer (drain : Drain β) (activations : List Activation) : Drain β :=
  { drain with
    director := { drain.director with nextWave := drain.director.nextWave ++ activations } }

/-- Takes over what a successful call scheduled. -/
def schedule (drain : Drain β) (activation : Activation) (effects : Effects) : Drain β :=
  let resumed := if effects.latent then drain.defer [activation.resumed] else drain
  let placed :=
    match effects.frames, resumed.stack with
    | [], [] => resumed.defer effects.fired
    | [], frame :: stack => { resumed with stack := (frame ++ effects.fired) :: stack }
    | frames, stack =>
      let left := match stack with
        | [] :: rest => rest
        | stack => stack
      let last := if effects.fired.isEmpty then [] else [effects.fired]
      { resumed with stack := frames ++ last ++ left }
  placed.defer effects.signalled

/-- Handles one activation that was taken from the wave or from the innermost frame. -/
def handle (drain : Drain β) (activation : Activation) : Drain β ⊕ Ending β :=
  let depth := drain.stack.length
  let report := { drain.report with maxDepth := max drain.report.maxDepth depth }
  match drain.director.invoke report.invoked depth activation with
  | (.discarded, director) =>
    .inl { drain with
      director := director, report := { report with discarded := report.discarded + 1 } }
  | (.faulted reason, director) => .inr (.error (.faulted reason), director)
  | (.unwound text, director) => .inr (.error (.unwound text), director)
  | (.failed, director) =>
    .inl { drain with
      director := director
      report := { report with invoked := report.invoked + 1, failed := report.failed + 1 } }
  | (.completed effects, director) =>
    let latent := if effects.latent then report.latent + 1 else report.latent
    let counted : Drain β := { drain with
      director := director
      report := { report with invoked := report.invoked + 1, latent := latent } }
    .inl (counted.schedule activation effects)

/-- Ends the tick. -/
def finish (drain : Drain β) : Ending β :=
  let report := { drain.report with carried := drain.director.nextWave.length }
  (.ok report, { drain.director with phase := .idle }.observe (.tickEnded report))

/-- One step: closes an exhausted frame, or handles the next activation, or ends the tick. -/
def step (drain : Drain β) : Drain β ⊕ Ending β :=
  match drain.stack with
  | [] :: stack => .inl { drain with stack := stack }
  | (activation :: frame) :: stack =>
    { drain with stack := frame :: stack }.handle activation
  | [] =>
    match drain.wave with
    | activation :: wave => { drain with wave := wave }.handle activation
    | [] => .inr drain.finish

/-- Steps until the tick ends, at most `fuel` times. -/
def run : Nat → Drain β → Option (Ending β)
  | 0, _ => none
  | fuel + 1, drain =>
    match drain.step with
    | .inl next => run fuel next
    | .inr ending => some ending

end Drain

namespace Director

variable {β : Type} [Behavior β]

/-- Moves the clock and takes both queues as the wave of a new tick. -/
def begin (director : Director β) (sim real : Float) : Drain β :=
  let clock := director.clock.advance sim real
  { director :=
      { director with
        clock := clock
        phase := .stepping
        nextWave := []
        injected := [] }.observe (.tickBegan clock.tick)
    report := { tick := clock.tick }
    wave := director.nextWave ++ director.injected }

/-- Steps the script by one tick; `none` when the tick takes more than `fuel` steps. A broken
director refuses. -/
def update (fuel : Nat) (sim real : Float) (director : Director β) : Option (Ending β) :=
  match director.fault with
  | some reason => some (.error (.faulted reason), director)
  | none => (director.begin sim real).run fuel

end Director

end FlowScript
