import FlowScript.Proofs.Unforced

/-!
# What a loop opens

Whatever its outputs are called, a loop that succeeds either pulses and opens no frame, or it
pulses nothing and opens two frames at most, the last of which resumes it and nothing else
(`Moment.opens_of_loop`). An act is followed by what it brings about in a turn if it succeeds
(`Act.Brings`).
-/

namespace FlowScript

variable {α γ β σ : Type}

/-! ## Acts -/

namespace Act

/-- From turns of the one kind the act brings about turns of the other, if it succeeds. -/
def Brings (P : Turn β → Prop) (act : Act σ α) (Q : Turn β → Prop) : Prop :=
  ∀ s turn a s' turn', P turn → act.result s turn = ((.ok a, s'), turn') → Q turn'

namespace Brings

variable {P M Q : Turn β → Prop}

theorem pure {a : α} : (pure a : Act σ α).Brings P P := by
  intro s turn b s' turn' hp hr
  cases hr
  exact hp

theorem bind {act : Act σ α} {f : α → Act σ γ} (h : act.Brings P M)
    (hf : ∀ a, (f a).Brings M Q) : (act >>= f).Brings P Q := by
  intro s turn c s'' turn'' hp hr
  rcases hact : act.result s turn with ⟨⟨stop | a, s'⟩, turn'⟩
  · rw [result_stop hact] at hr
    cases hr
  · rw [result_bind hact] at hr
    exact hf a s' turn' c s'' turn'' (h s turn a s' turn' hp hact) hr

theorem fail {error : NodeError} : (Act.fail error : Act σ α).Brings P Q := by
  intro s turn a s' turn' _ hr
  cases hr

theorem panic {text : Option String} : (Act.panic text : Act σ α).Brings P Q := by
  intro s turn a s' turn' _ hr
  cases hr

theorem get : (get : Act σ σ).Brings P P := by
  intro s turn a s' turn' hp hr
  cases hr
  exact hp

theorem set {s₀ : σ} : (set s₀ : Act σ PUnit).Brings P P := by
  intro s turn a s' turn' hp hr
  cases hr
  exact hp

theorem ask {r : Request} (h : ∀ turn, P turn → Q (turn.answer r).2) :
    (Act.ask r : Act σ r.Answer).Brings P Q := by
  intro s turn a s' turn' hp hr
  rw [result_ask] at hr
  cases hr
  exact h turn hp

theorem read {name expected : String} {view : Property → Option α} :
    (Act.read name expected view : Act σ α).Brings P P := by
  refine .bind (ask fun _ hp => hp) fun answer => ?_
  rcases answer with _ | value
  · exact fail
  · dsimp only
    split
    · exact .pure
    · exact fail

theorem outputIndex {name : String} : (Act.outputIndex name : Act σ Nat).Brings P P := by
  refine .bind (ask fun _ hp => hp) fun answer => ?_
  rcases answer with _ | index
  · exact fail
  · exact .pure

theorem fire {name : String} (h : ∀ turn index, P turn → Q (turn.pulse index).2) :
    (Act.fire name : Act σ Unit).Brings P Q :=
  .bind outputIndex fun index => .bind (ask fun turn => h turn index) fun _ => .pure

theorem pushOutput {name : String} (h : ∀ turn index, P turn → Q (turn.pushTargets index)) :
    (Act.pushOutput name : Act σ Unit).Brings P Q :=
  .bind outputIndex fun index => ask fun turn => h turn index

theorem write {name : String} {value : Property} (h : ∀ turn, P turn →
      Q { turn with script := (turn.script.setProperty turn.activation.node name value).2 }) :
    (Act.write name value : Act σ Unit).Brings P Q :=
  .bind (ask h) fun _ => .pure

end Brings

end Act

/-! ## Turns -/

namespace Turn

/-- Since its start the call has written values at most, and has opened these frames. -/
structure Opened (start : Turn β) (frames : List (List Activation)) (turn : Turn β) : Prop where
  activation : turn.activation = start.activation
  skeleton : turn.script.skeleton = start.script.skeleton
  outputs : turn.node?.map (·.outputs) = start.node?.map (·.outputs)
  frames : turn.frames = frames

/-- Each activation calls what the node is connected to. -/
def Follows (start : Turn β) (targets : List Activation) : Prop :=
  ∀ b ∈ targets, start.script.Feeds start.activation.node b.node

variable {start turn : Turn β} {frames : List (List Activation)}

namespace Opened

theorem write (h : start.Opened frames turn) (name : String) (value : Property) :
    start.Opened frames
      { turn with script := (turn.script.setProperty turn.activation.node name value).2 } where
  activation := h.activation
  skeleton := (turn.script.setProperty_skeleton _ name value).trans h.skeleton
  outputs := (Script.outputs_writes.setProperty _ _ name value _).trans h.outputs
  frames := h.frames

theorem push (h : start.Opened frames turn) (frame : List Activation) :
    start.Opened (frames ++ [frame]) (turn.push frame) :=
  ⟨h.activation, h.skeleton, h.outputs, congrArg (· ++ [frame]) h.frames⟩

theorem pushTargets (h : start.Opened frames turn) (index : Nat) : ∃ targets,
    start.Follows targets ∧ start.Opened (frames ++ framed targets) (turn.pushTargets index) := by
  have none (htargets : (turn.node?.bind (·.outputs[index]?)) = none) : ∃ targets,
      start.Follows targets ∧ start.Opened (frames ++ framed targets) (turn.pushTargets index) := by
    refine ⟨[], List.forall_mem_nil _, ?_⟩
    rw [Turn.pushTargets, htargets]
    simpa [framed] using h
  rcases hn : turn.node? with _ | node
  · exact none (by rw [hn]; rfl)
  rcases hl : node.outputs[index]? with _ | link
  · exact none (by rw [hn, Option.bind_some, hl])
  refine ⟨link.targets, fun b hb => ?_, ?_⟩
  · have hfeeds := feeds_of_mem_targets hn hl hb
    rwa [Script.feeds_of_skeleton h.skeleton, h.activation] at hfeeds
  · rw [pushTargets_eq hn hl]
    exact ⟨h.activation, h.skeleton, h.outputs, congrArg (· ++ framed link.targets) h.frames⟩

/-- Nothing is fired if nothing was before. -/
theorem fired (h : start.Opened frames turn) : turn.fired = start.fired := by
  have hall : ∀ t : Turn β, t.fired = (t.node?.map (·.outputs)).elim [] fun outputs =>
      outputs.flatMap fun output => (List.replicate output.active output.targets).flatten := by
    intro t
    unfold Turn.fired
    rcases t.node? with _ | node <;> rfl
  rw [hall, hall, h.outputs]

end Opened

end Turn

namespace Standard

/-- How a call of a loop leaves its turn, if it succeeds. -/
def Opens (start turn : Turn β) : Prop :=
  turn.frames = [] ∨ ∃ targets, start.Follows targets
    ∧ start.Opened (framed targets ++ [[start.activation.resumed]]) turn

theorem iterateAct_brings (start : Turn β) :
    iterateAct.Brings (start.Opened []) (Opens start) := by
  have pushes : (Act.pushOutput "Out" : Act Int64 Unit).Brings (start.Opened []) fun turn =>
      ∃ targets, start.Follows targets ∧ start.Opened (framed targets) turn :=
    .pushOutput fun turn index h => h.pushTargets index
  refine .bind .get fun current => .bind .read fun last => ?_
  split
  · refine .bind (.fire fun turn index h => ?_) fun _ => .pure
    -- A pulse opens no frame.
    refine .inl (Eq.trans ?_ h.frames)
    unfold Turn.pulse
    split <;> rfl
  · refine .bind (.write fun turn h => h.write _ _) fun _ => ?_
    refine .bind pushes fun _ => .bind (.ask ?_) fun _ => .pure
    rintro turn ⟨targets, hfollows, h⟩
    refine .inr ⟨targets, hfollows, ?_⟩
    rw [← h.activation]
    exact h.push [turn.activation.resumed]

theorem successor_brings {i : Int64} {P : Turn β → Prop} :
    (successor i : Act σ Int64).Brings P P := by
  unfold successor
  split
  · exact .panic
  · exact .pure

theorem forLoopAct_brings (start : Turn β) : ∀ first : Bool,
    (forLoopAct first).Brings (start.Opened []) (Opens start)
  | true => by
    have hact : forLoopAct true
        = Act.getInt "Start" >>= fun s => set s >>= fun _ => iterateAct := rfl
    rw [hact]
    exact .bind .read fun _ => .bind .set fun _ => iterateAct_brings start
  | false => by
    have hact : forLoopAct false
        = get >>= fun i => successor i >>= fun s => set s >>= fun _ => iterateAct := rfl
    rw [hact]
    exact .bind .get fun _ => .bind successor_brings fun _ => .bind .set fun _ =>
      iterateAct_brings start

end Standard

/-! ## Calls -/

namespace Moment

variable {m : Moment Standard} {node : Node Standard}

theorem opened_start (m : Moment Standard) (node : Node Standard) :
    (m.start node).Opened [] (m.start node) := ⟨rfl, rfl, rfl, rfl⟩

theorem fired_start (ht : m.target? = some node) (quiet : m.director.script.Quiet) :
    (m.start node).fired = [] := by
  obtain ⟨hn, -⟩ := target?_eq_some.1 ht
  rw [Turn.fired, node?_start ht, Option.elim_some, Node.fired, List.flatMap_eq_nil_iff]
  intro link hl
  rw [Script.quiet_iff.1 quiet _ node hn link hl]
  rfl

/-- If no output has a pulse before, a call that opens frames is one of a loop, and it opens no more
than a frame for what an output is connected to and, below it, one that resumes the loop. -/
theorem opens_of_loop {call : Call Standard} {latent : Bool} (hc : m.call? = some call)
    (hv : call.verdict = .ok latent) (hf : call.turn.frames ≠ [])
    (quiet : m.director.script.Quiet) : m.director.script.IsLoop m.activation.node
      ∧ call.turn.fired = [] ∧ ∃ targets,
        (∀ b ∈ targets, m.director.script.Feeds m.activation.node b.node)
          ∧ call.turn.frames = framed targets ++ [[m.activation.resumed]] := by
  have hloop := (frames_open hc).2 hf
  refine ⟨hloop, ?_⟩
  obtain ⟨node, behavior, ht, hb, -, -⟩ := call?_eq_some hc
  obtain ⟨current, hcurrent⟩ := hloop
  obtain rfl : behavior = .forLoop current := by
    rw [behavior?_of_target? ht, hb] at hcurrent
    exact Option.some.inj hcurrent
  obtain ⟨hmade, -⟩ := call?_of_result Standard.counts ht hb rfl
  obtain rfl := Option.some.inj (hc.symm.trans hmade)
  have hends := Standard.forLoopAct_brings (m.start node) m.activation.first current _ latent _ _
    (m.opened_start node) (Prod.ext (Prod.ext hv rfl) rfl)
  obtain ⟨targets, hfollows, hopened⟩ := hends.resolve_left hf
  refine ⟨hopened.fired.trans (fired_start ht quiet), targets, fun b hb => ?_, hopened.frames⟩
  have hfeeds := hfollows b hb
  rwa [start, Script.feeds_of_skeleton (m.turn_skeleton node)] at hfeeds

end Moment

end FlowScript
