import FlowScript.Proofs.Changes
import FlowScript.Proofs.Iteration

/-!
# What a call pulses

A call pulses outputs of its own node, one after another (`Moment.pulsed`), and nothing else that
it does touches them (`Program.run_outputs`). An act is followed request by request (`Act.Runs`):
how it ends, what it leaves of its private state and of its turn, and what it pulses on the way.
-/

namespace FlowScript

variable {α γ β σ : Type}

/-! ## Programs -/

/-- The outputs that the answer to a request pulses. -/
def Turn.pulsedBy (turn : Turn β) : Request → List Nat
  | .pulse output => if (turn.pulse output).1 then [output] else []
  | _ => []

/-- The outputs of a node after some pulses. -/
def OutputLink.pulsed (links : List OutputLink) (pulses : List Nat) : List OutputLink :=
  pulses.foldl (fun links index => links.modify index activate) links

namespace Program

/-- The outputs that the requests of a program pulse, one request after another. -/
def pulsed : Program α → Turn β → List Nat
  | .done _, _ => []
  | .ask r next, turn => turn.pulsedBy r ++ pulsed (next (turn.answer r).1) (turn.answer r).2

theorem pulsed_bind (p : Program α) (f : α → Program γ) (turn : Turn β) :
    (p >>= f).pulsed turn = p.pulsed turn ++ (f (p.run turn).1).pulsed (p.run turn).2 := by
  induction p generalizing turn with
  | done a => rfl
  | ask r next ih => rw [ask_bind, pulsed, ih, pulsed, List.append_assoc, run]

end Program

/-- A request pulses the outputs of the node that is called, or leaves them alone. -/
theorem Turn.answer_outputs (turn : Turn β) (r : Request) :
    (turn.answer r).2.node?.map (·.outputs)
      = turn.node?.map fun node => OutputLink.pulsed node.outputs (turn.pulsedBy r) := by
  have written (script : Script β)
      (h : (script.node? turn.activation.node).map (·.outputs) = turn.node?.map (·.outputs)) :
      ({ turn with script := script } : Turn β).node?.map (·.outputs)
        = turn.node?.map fun node => OutputLink.pulsed node.outputs [] := h
  cases r with
  | pulse output =>
    rcases hn : turn.node? with _ | node
    · simp only [answer, pulse, hn]
      rfl
    have hfound : (turn.script.modifyNode turn.activation.node
        fun n => (n.activateOutput output).2).node? turn.activation.node
          = some (node.activateOutput output).2 := by
      rw [Script.node?_modifyNode_self _ _ fun n => (n.booked_activateOutput output).id,
        show turn.script.node? turn.activation.node = some node from hn, Option.map_some]
    have hafter : (turn.answer (.pulse output)).2.node? = some (node.activateOutput output).2 := by
      rw [answer, pulse_eq hn]
      exact hfound
    have hpulsed : turn.pulsedBy (.pulse output)
        = if (node.activateOutput output).1 then [output] else [] := by
      simp only [pulsedBy, pulse, hn]
    rw [hafter, hpulsed, Option.map_some, Option.map_some]
    unfold Node.activateOutput
    split <;> rfl
  | setProperty name value =>
    exact written _ (Script.outputs_writes.setProperty _ _ name value _)
  | setSlot link index value =>
    simp only [answer, edit]
    rcases turn.link? link with _ | ref
    · rfl
    · exact written _ (Script.outputs_writes.setLinkValue _ ref index value _)
  | pushTargets output =>
    simp only [answer, pushTargets]
    split <;> rfl
  | _ => rfl

/-- At the end of a program the outputs have the pulses that they had before and those that the
program made. -/
theorem Program.run_outputs (p : Program α) (turn : Turn β) :
    (p.run turn).2.node?.map (·.outputs)
      = turn.node?.map fun node => OutputLink.pulsed node.outputs (p.pulsed turn) := by
  induction p generalizing turn with
  | done a => rfl
  | ask r next ih =>
    have hanswer := turn.answer_outputs r
    rw [run, ih, pulsed]
    rcases hn : turn.node? with _ | node <;> rw [hn] at hanswer
    · rw [Option.map_none, Option.map_eq_none_iff] at hanswer
      rw [hanswer]
      rfl
    · obtain ⟨n, hn', houtputs⟩ := Option.map_eq_some_iff.1 hanswer
      rw [hn', Option.map_some, houtputs, Option.map_some]
      simp only [OutputLink.pulsed, List.foldl_append]

/-! ## Acts -/

namespace Act

/-- How an act goes in a turn, from a private state: how it ends, the state and the turn then, and
the outputs that it pulsed. -/
structure Runs (act : Act σ α) (s : σ) (turn : Turn β) (ended : Except Stop α) (s' : σ)
    (turn' : Turn β) (pulses : List Nat) : Prop where
  result : act.result s turn = ((ended, s'), turn')
  pulsed : (act.run.run s).pulsed turn = pulses

namespace Runs

variable {s s' s'' : σ} {turn turn' turn'' : Turn β} {pulses pulses' : List Nat}

theorem pure (a : α) : (pure a : Act σ α).Runs s turn (.ok a) s turn [] := ⟨rfl, rfl⟩

theorem bind {act : Act σ α} {f : α → Act σ γ} {a : α} {ended : Except Stop γ}
    (h : act.Runs s turn (.ok a) s' turn' pulses)
    (hf : (f a).Runs s' turn' ended s'' turn'' pulses') :
    (act >>= f).Runs s turn ended s'' turn'' (pulses ++ pulses') := by
  refine ⟨(result_bind h.result f).trans hf.result, ?_⟩
  have hrun : Program.run (act.run.run s) turn = ((.ok a, s'), turn') := h.result
  refine (Program.pulsed_bind (act.run.run s) _ turn).trans ?_
  rw [hrun, h.pulsed]
  exact congrArg (pulses ++ ·) hf.pulsed

theorem stop {act : Act σ α} {f : α → Act σ γ} {stop : Stop}
    (h : act.Runs s turn (.error stop) s' turn' pulses) :
    (act >>= f).Runs s turn (.error stop) s' turn' pulses := by
  refine ⟨result_stop h.result f, ?_⟩
  have hrun : Program.run (act.run.run s) turn = ((.error stop, s'), turn') := h.result
  refine (Program.pulsed_bind (act.run.run s) _ turn).trans ?_
  rw [hrun, h.pulsed]
  exact List.append_nil _

theorem get : (get : Act σ σ).Runs s turn (.ok s) s turn [] := ⟨rfl, rfl⟩

theorem set : (set s' : Act σ PUnit).Runs s turn (.ok ⟨⟩) s' turn [] := ⟨rfl, rfl⟩

theorem modify {f : σ → σ} : (modify f : Act σ PUnit).Runs s turn (.ok ⟨⟩) (f s) turn [] :=
  ⟨rfl, rfl⟩

theorem panic (text : Option String) : (Act.panic text : Act σ α).Runs s turn
    (.error (.panicked text)) s turn [] :=
  ⟨rfl, rfl⟩

theorem ask (r : Request) : (Act.ask r : Act σ r.Answer).Runs s turn (.ok (turn.answer r).1) s
    (turn.answer r).2 (turn.pulsedBy r) := by
  refine ⟨result_ask r, ?_⟩
  exact List.append_nil _

theorem read {name expected : String} {view : Property → Option α} {a : α}
    (h : (turn.script.property? turn.activation.node name).bind view = some a) :
    (Act.read name expected view : Act σ α).Runs s turn (.ok a) s turn [] := by
  obtain ⟨value, hvalue, hview⟩ := Option.bind_eq_some_iff.1 h
  have hanswer : (turn.answer (.property name)).1 = some value := hvalue
  refine .bind (ask (.property name)) ?_
  rw [hanswer]
  simp only [hview]
  exact .pure a

/-- A property that is missing, or is not of the type that is asked for, fails the act. -/
theorem unread {name expected : String} {view : Property → Option α}
    (h : (turn.script.property? turn.activation.node name).bind view = none) :
    ∃ error, (Act.read name expected view : Act σ α).Runs s turn (.error (.failed error)) s turn
      [] := by
  rcases hvalue : turn.script.property? turn.activation.node name with _ | value
  · refine ⟨.missingProperty name, .bind (ask (.property name)) ?_⟩
    rw [show (turn.answer (.property name)).1 = none from hvalue]
    exact ⟨rfl, rfl⟩
  · rw [hvalue, Option.bind_some] at h
    refine ⟨.propertyType name expected value.typeName, .bind (ask (.property name)) ?_⟩
    rw [show (turn.answer (.property name)).1 = some value from hvalue]
    simp only [h]
    exact ⟨rfl, rfl⟩

theorem outputIndex {name : String} {index : Nat}
    (h : turn.node?.bind (·.outputIndex? name) = some index) :
    (Act.outputIndex name : Act σ Nat).Runs s turn (.ok index) s turn [] := by
  refine .bind (ask (.outputIndex name)) ?_
  rw [show (turn.answer (.outputIndex name)).1 = some index from h]
  exact .pure index

/-- An output that exists is pulsed. -/
theorem pulse {node : Node β} {index : Nat} (hn : turn.node? = some node)
    (hi : index < node.outputs.length) :
    (Act.pulse index : Act σ Bool).Runs s turn (.ok true) s (turn.pulse index).2 [index] := by
  have hanswer : (turn.pulse index).1 = true := by
    simp only [Turn.pulse, hn, Node.activateOutput, if_pos hi]
  have hask : (Act.ask (.pulse index) : Act σ Bool).Runs s turn
      (.ok (turn.answer (.pulse index)).1) s (turn.answer (.pulse index)).2
      (turn.pulsedBy (.pulse index)) := ask (.pulse index)
  have hpulsed : turn.pulsedBy (.pulse index) = [index] := if_pos hanswer
  rw [show (turn.answer (.pulse index)).1 = true from hanswer, hpulsed] at hask
  exact hask

theorem fire {node : Node β} {name : String} {index : Nat} (hn : turn.node? = some node)
    (ho : node.outputIndex? name = some index) (hi : index < node.outputs.length) :
    (Act.fire name : Act σ Unit).Runs s turn (.ok ()) s (turn.pulse index).2 [index] := by
  have hindex : turn.node?.bind (·.outputIndex? name) = some index := by
    rw [hn, Option.bind_some, ho]
  exact .bind (outputIndex hindex) (.bind (pulse hn hi) (.pure ()))

theorem write (name : String) (value : Property) :
    (Act.write name value : Act σ Unit).Runs s turn (.ok ()) s
      { turn with script := (turn.script.setProperty turn.activation.node name value).2 } [] :=
  .bind (ask (.setProperty name value)) (.pure ())

end Runs

end Act

/-! ## Calls -/

/-- The behavior is an act, with a private state. -/
def Performs [Behavior β] (act : Option Nat → Bool → Act σ Bool) (state : σ → β) : Prop :=
  ∀ s input first, Behavior.react (state s) input first =
    (fun ended => (ended.1, state ended.2)) <$> (act input first).start s

namespace Moment

variable [Behavior β]

/-- The outputs that a call pulses, one after another. The pulses of a call that fails are
withdrawn, and those of one that succeeds are what it adds to its outputs (`outputs_of_ok`). -/
def pulsed (m : Moment β) : List Nat :=
  (m.target?.bind fun node => node.behavior.map fun behavior =>
    match (m.answered node behavior).1.1 with
    | .ok _ => (Behavior.react behavior m.activation.input m.activation.first).pulsed
      (m.director.turn m.activation node.graph)
    | .error _ => []).getD []

variable {m : Moment β} {node : Node β} {act : Option Nat → Bool → Act σ Bool} {state : σ → β}
  {s s' : σ} {turn' : Turn β} {verdict : Verdict} {pulses : List Nat}

/-- A call, given how its act goes. -/
theorem call?_of_runs (performs : Performs act state) (ht : m.target? = some node)
    (hb : node.behavior = some (state s))
    (h : (act m.activation.input m.activation.first).Runs s (m.start node) verdict s' turn'
      pulses) :
    m.call? = some ⟨verdict, turn', turn'.signalled⟩
      ∧ m.answered node (state s) = ((verdict, state s'), turn')
      ∧ m.pulsed = verdict.toOption.elim [] fun _ => pulses := by
  have hrun : Program.run ((act m.activation.input m.activation.first).start s) (m.start node)
      = ((verdict, s'), turn') := h.result
  have hanswered : m.answered node (state s) = ((verdict, state s'), turn') := by
    rw [answered, performs, Program.run_map, ← start, hrun]
  refine ⟨?_, hanswered, ?_⟩
  · rw [call?_of_behavior ht hb, ← answered_signalled, hanswered]
  · have hreact : (Behavior.react (state s) m.activation.input m.activation.first).pulsed
        (m.start node) = pulses := by
      rw [performs]
      exact (Program.pulsed_bind _ _ _).trans ((List.append_nil _).trans h.pulsed)
    simp only [pulsed, ht, Option.bind_some, hb, Option.map_some, hanswered, Option.getD_some]
    rcases verdict with stop | latent
    · rfl
    · exact hreact

/-- A call that succeeds leaves its outputs with the pulses that it made. -/
theorem outputs_of_ok {call : Call β} {latent : Bool} (ht : m.target? = some node)
    (hc : m.call? = some call) (hv : call.verdict = .ok latent) :
    call.turn.node?.map (·.outputs) = some (OutputLink.pulsed node.outputs m.pulsed) := by
  obtain ⟨node', behavior, ht', hb, hverdict, hturn⟩ := call?_eq_some hc
  obtain rfl := Option.some.inj (ht.symm.trans ht')
  have hpulsed : m.pulsed
      = (Behavior.react behavior m.activation.input m.activation.first).pulsed (m.start node) := by
    simp only [pulsed, ht, Option.bind_some, hb, Option.map_some, ← hverdict, hv, Option.getD_some]
    rfl
  rw [hturn, hpulsed]
  refine (Program.run_outputs _ (m.start node)).trans ?_
  rw [node?_start ht]
  rfl

/-- A call that succeeds, does or does not want to be called again, makes the pulses and schedules
nothing else. -/
structure Returns (m : Moment β) (latent : Bool) (pulses : List Nat) : Prop where
  call : ∃ call, m.call? = some call ∧ call.verdict = .ok latent ∧ call.turn.frames = []
    ∧ call.found = []
  pulsed : m.pulsed = pulses

theorem returns_of_runs {latent : Bool} (performs : Performs act state) (ht : m.target? = some node)
    (hb : node.behavior = some (state s))
    (h : (act m.activation.input m.activation.first).Runs s (m.start node) (.ok latent) s' turn'
      pulses) (frames : turn'.frames = []) (signalled : turn'.signalled = []) :
    m.Returns latent pulses := by
  obtain ⟨hc, -, hpulsed⟩ := call?_of_runs performs ht hb h
  exact ⟨⟨_, hc, rfl, frames, signalled⟩, hpulsed⟩

/-- A call that fails without a panic, and so has pulsed nothing. -/
structure Fails (m : Moment β) : Prop where
  call : ∃ call error, m.call? = some call ∧ call.verdict = .error (.failed error)
  fate : m.outcome.1 = .failed
  pulsed : m.pulsed = []

theorem fails_of_runs {error : NodeError} (performs : Performs act state)
    (ht : m.target? = some node) (hb : node.behavior = some (state s))
    (h : (act m.activation.input m.activation.first).Runs s (m.start node)
      (.error (.failed error)) s' turn' pulses) : m.Fails := by
  obtain ⟨hc, -, hpulsed⟩ := call?_of_runs performs ht hb h
  refine ⟨⟨_, error, hc, rfl⟩, ?_, hpulsed⟩
  rw [outcome_of_error ht hb hc rfl nofun]

end Moment

end FlowScript
