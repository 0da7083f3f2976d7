import FlowScript.Proofs.Asks
import FlowScript.Proofs.Session

/-!
# What a host is sent

The messages that a call hands to the host are those of its requests, one after another, whether the
call succeeds or not (`Moment.sent`). A tick, however it ends, hands over what its calls send, in
the order of the calls (`Director.bridge_update`), and no move of a host hands over anything. So
over a whole run a log has what it had before and then what was sent, call by call
(`Chronicle.log`).
-/

namespace FlowScript

variable {α γ β : Type}

/-! ## Programs -/

/-- The messages that a request hands over. -/
def Request.sent : Request → List Message
  | .send message => [message]
  | _ => []

namespace Bridge

/-- Hands messages over, one after another. -/
def sendAll (bridge : Bridge) (messages : List Message) : Bridge := messages.foldl send bridge

theorem sendAll_append (bridge : Bridge) (messages more : List Message) :
    bridge.sendAll (messages ++ more) = (bridge.sendAll messages).sendAll more :=
  List.foldl_append

theorem sendAll_recording (log : MessageLog) (messages : List Message) :
    (recording log).sendAll messages = recording ⟨log.messages ++ messages⟩ := by
  induction messages generalizing log with
  | nil => rw [List.append_nil]; rfl
  | cons message messages ih =>
    refine (ih (log.send message)).trans ?_
    rw [MessageLog.send, List.append_assoc, List.singleton_append]

end Bridge

theorem Turn.answer_bridge (turn : Turn β) (r : Request) :
    (turn.answer r).2.bridge = turn.bridge.sendAll r.sent := by
  cases r with
  | pulse output =>
    simp only [answer, pulse]
    split <;> rfl
  | pushTargets output =>
    simp only [answer, pushTargets]
    split <;> rfl
  | _ => rfl

namespace Program

/-- The messages that the requests of a program hand over, one request after another. -/
def sent : Program α → Turn β → List Message
  | .done _, _ => []
  | .ask r next, turn => r.sent ++ sent (next (turn.answer r).1) (turn.answer r).2

theorem sent_bind (p : Program α) (f : α → Program γ) (turn : Turn β) :
    (p >>= f).sent turn = p.sent turn ++ (f (p.run turn).1).sent (p.run turn).2 := by
  induction p generalizing turn with
  | done a => rfl
  | ask r next ih => rw [ask_bind, sent, ih, sent, List.append_assoc, run]

theorem sent_map (f : α → γ) (p : Program α) (turn : Turn β) :
    (f <$> p).sent turn = p.sent turn :=
  (p.sent_bind _ turn).trans (List.append_nil _)

theorem run_bridge (p : Program α) (turn : Turn β) :
    (p.run turn).2.bridge = turn.bridge.sendAll (p.sent turn) := by
  induction p generalizing turn with
  | done a => rfl
  | ask r next ih => rw [run, ih, turn.answer_bridge, sent, Bridge.sendAll_append]

/-- A program that does not ask to send sends nothing. -/
theorem Asks.sent_eq_nil {p : Program α} (h : p.Asks fun r => r.sent = []) (turn : Turn β) :
    p.sent turn = [] := by
  induction p generalizing turn with
  | done a => rfl
  | ask r next ih => rw [sent, h.1, ih _ (h.2 _), List.append_nil]

end Program

theorem Director.bridge_settle (director : Director β) (turn : Turn β) (record : Record)
    (before : List Nat) (verdict : Verdict) (behavior : β) :
    (director.settle turn record before verdict behavior).2.bridge = director.bridge := by
  have withdrawn : ∀ error,
      (director.withdraw record behavior before error).2.bridge = director.bridge := by
    intro error
    rcases director.withdraw_cases record behavior before error with ⟨reason, h⟩ | ⟨script, h⟩ <;>
      exact congrArg (·.2.bridge) h
  unfold settle
  split
  · rename_i latent
    rcases director.complete_cases turn behavior latent with ⟨reason, h⟩ | ⟨_, script, -, h, -⟩ <;>
      exact congrArg (·.2.bridge) h
  · exact withdrawn _
  · split
    · exact withdrawn _
    · rfl

variable [Behavior β]

/-! ## Calls and ticks -/

namespace Moment

/-- The messages that a call hands over; none if there is no call. -/
def sent (m : Moment β) : List Message :=
  (m.target?.bind fun node => node.behavior.map fun behavior =>
    (Behavior.react behavior m.activation.input m.activation.first).sent
      (m.director.turn m.activation node.graph)).getD []

theorem sent_of_target?_none {m : Moment β} (h : m.target? = none) : m.sent = [] := by
  rw [sent, h]
  rfl

theorem sent_of_behavior {m : Moment β} {node : Node β} {behavior : β} (ht : m.target? = some node)
    (hb : node.behavior = some behavior) :
    m.sent = (Behavior.react behavior m.activation.input m.activation.first).sent
      (m.director.turn m.activation node.graph) := by
  simp only [sent, ht, hb, Option.bind_some, Option.map_some, Option.getD_some]

theorem bridge_outcome (m : Moment β) : m.outcome.2.bridge = m.director.bridge.sendAll m.sent := by
  rcases ht : m.target? with _ | node
  · rw [outcome_of_target?_none ht, sent_of_target?_none ht]
    rfl
  rcases hb : node.behavior with _ | behavior
  · rw [outcome_of_behavior_none ht hb, sent, ht, Option.bind_some, hb]
    rfl
  rw [outcome_of_behavior ht hb, Director.bridge_settle, sent_of_behavior ht hb]
  exact Program.run_bridge _ _

end Moment

namespace Director

variable {start director : Director β}

/-- A tick, however it ends, hands over what its calls send. -/
theorem bridge_update {after : Director β} {fuel : Nat} {sim real : Float}
    {ending : Except Halt Report} (h : director.update fuel sim real = some (ending, after)) :
    after.bridge =
      director.bridge.sendAll ((director.history fuel sim real).flatMap Moment.sent) := by
  have overlooks : Overlooks fun director : Director β => director.bridge :=
    fun _ _ _ _ _ _ => rfl
  refine view_induction overlooks (motive := fun before history after =>
    after = before.sendAll (history.flatMap Moment.sent)) (fun _ => rfl)
    (fun m history after ih => ?_) h
  rw [ih, m.bridge_outcome, List.flatMap_cons, Bridge.sendAll_append]

omit [Behavior β] in
theorem bridge_move (director : Director β) (move : Move β) :
    (director.move move).bridge = director.bridge := by
  cases move with
  | enqueue activation =>
    obtain ⟨more, h⟩ := director.enqueue_injects activation
    rw [Director.move, h]
    rfl
  | triggerInput graph node input =>
    obtain ⟨more, h⟩ := director.triggerInput_injects graph node input
    rw [Director.move, h]
    rfl
  | _ => rfl

/-- What becomes of a director by permitted moves and by ticks, however they end, with every moment
of these ticks in order. -/
inductive Chronicle (permits : Move β → Prop) (start : Director β) :
    List (Moment β) → Director β → Prop where
  | start : Chronicle permits start [] start
  | move {history : List (Moment β)} {director : Director β} (move : Move β)
      (permitted : permits move) (chronicle : Chronicle permits start history director) :
      Chronicle permits start history (director.move move)
  | tick {history : List (Moment β)} {director after : Director β} {fuel : Nat} {sim real : Float}
      {ending : Except Halt Report} (chronicle : Chronicle permits start history director)
      (updated : director.update fuel sim real = some (ending, after)) :
      Chronicle permits start (history ++ director.history fuel sim real) after

namespace Chronicle

variable {permits : Move β → Prop} {history : List (Moment β)}

/-- What is sent in the course of a run reaches the bridge call by call. -/
theorem bridge (h : start.Chronicle permits history director) :
    director.bridge = start.bridge.sendAll (history.flatMap Moment.sent) := by
  induction h with
  | start => rfl
  | move move permitted chronicle ih => rw [bridge_move, ih]
  | tick chronicle updated ih =>
    rw [bridge_update updated, ih, List.flatMap_append, Bridge.sendAll_append]

theorem log (h : start.Chronicle permits history director) {log : MessageLog}
    (recorded : start.bridge = .recording log) :
    director.bridge = .recording ⟨log.messages ++ history.flatMap Moment.sent⟩ := by
  rw [h.bridge, recorded, Bridge.sendAll_recording]

theorem session (h : start.Chronicle permits history director) :
    start.Session permits director := by
  induction h with
  | start => exact .start
  | move move permitted chronicle ih => exact ih.move move permitted
  | tick chronicle updated ih => exact ih.tick updated

/-- What holds of every reachable script, and is kept by the handling of each activation, holds at
each moment. -/
theorem each {placed : NodeBuilder β → Prop} {P : Script β → Prop}
    (reached : ∀ script : Script β, script.Reachable placed → P script)
    (kept : ∀ m : Moment β, P m.director.script → P m.outcome.2.script)
    (h : start.Chronicle (Move.Places placed) history director)
    (hs : start.script.Reachable placed) : ∀ m ∈ history, P m.director.script := by
  induction h with
  | start => exact List.forall_mem_nil _
  | move move permitted chronicle ih => exact ih
  | tick chronicle updated ih =>
    have hbefore := reached _ (chronicle.session.reachable (fun _ h => h) hs)
    exact List.forall_mem_append.2 ⟨ih, (keeps_update kept hbefore _ _ _).2⟩

end Chronicle

end Director

end FlowScript
