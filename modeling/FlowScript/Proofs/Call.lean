import FlowScript.Director.Tick

/-!
# What a call leaves

A call reads and writes through its turn, and the turn stays the turn of the same activation
(`run_activation`). The events that it starts are the ones that its requests found, in the order
in which they were found (`run_signalled`).
-/

namespace FlowScript

variable {α β : Type}

namespace Turn

theorem pulse_activation (turn : Turn β) (output : Nat) :
    (turn.pulse output).2.activation = turn.activation := by
  unfold pulse
  split <;> rfl

theorem pulse_signalled (turn : Turn β) (output : Nat) :
    (turn.pulse output).2.signalled = turn.signalled := by
  unfold pulse
  split <;> rfl

theorem pushTargets_activation (turn : Turn β) (output : Nat) :
    (turn.pushTargets output).activation = turn.activation := by
  unfold pushTargets
  split <;> rfl

theorem pushTargets_signalled (turn : Turn β) (output : Nat) :
    (turn.pushTargets output).signalled = turn.signalled := by
  unfold pushTargets
  split <;> rfl

theorem answer_activation (turn : Turn β) (r : Request) :
    (turn.answer r).2.activation = turn.activation := by
  cases r with
  | pulse output => exact turn.pulse_activation output
  | pushTargets output => exact turn.pushTargets_activation output
  | _ => rfl

theorem answer_graph (turn : Turn β) (r : Request) : (turn.answer r).2.graph = turn.graph := by
  cases r with
  | pulse output =>
    simp only [answer, pulse]
    split <;> rfl
  | pushTargets output =>
    simp only [answer, pushTargets]
    split <;> rfl
  | _ => rfl

/-- The events that the answer to a request found. -/
def foundBy (turn : Turn β) : Request → List NodeId
  | .signal event scope =>
    turn.script.eventsNamed event (scope.getD turn.scope) turn.graph
  | _ => []

theorem answer_signalled (turn : Turn β) (r : Request) :
    (turn.answer r).2.signalled = turn.signalled ++ turn.foundBy r := by
  cases r with
  | signal event scope => rfl
  | pulse output => exact (turn.pulse_signalled output).trans (List.append_nil _).symm
  | pushTargets output => exact (turn.pushTargets_signalled output).trans (List.append_nil _).symm
  | _ => exact (List.append_nil _).symm

end Turn

namespace Program

theorem run_activation (p : Program α) (turn : Turn β) :
    (p.run turn).2.activation = turn.activation := by
  induction p generalizing turn with
  | done a => rfl
  | ask r next ih =>
    rw [run, ih]
    exact turn.answer_activation r

/-- The events that the requests of a program find, one request after another. -/
def found : Program α → Turn β → List NodeId
  | .done _, _ => []
  | .ask r next, turn => turn.foundBy r ++ found (next (turn.answer r).1) (turn.answer r).2

theorem run_signalled (p : Program α) (turn : Turn β) :
    (p.run turn).2.signalled = turn.signalled ++ p.found turn := by
  induction p generalizing turn with
  | done a => exact (List.append_nil _).symm
  | ask r next ih => rw [run, ih, turn.answer_signalled r, found, List.append_assoc]

end Program

end FlowScript
