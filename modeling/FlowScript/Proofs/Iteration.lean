import FlowScript.Proofs.Reading
import FlowScript.Proofs.Withdrawal

/-!
# One call of a loop

What an act does in a turn can be worked out request by request (`Act.result`). A loop that is at an
index writes it, opens a frame for what `Out` is connected to and one that resumes the loop
(`Standard.iterateAct_within`); past its end it pulses `Finished` instead
(`Standard.iterateAct_past`).
-/

namespace FlowScript

variable {α γ β σ : Type}

/-! ## Results of acts -/

namespace Act

/-- How an act ends in a turn, from a private state, and the state and the turn then. -/
def result (act : Act σ α) (s : σ) (turn : Turn β) : (Except Stop α × σ) × Turn β :=
  Program.run (act.run.run s) turn

variable {s s' : σ} {turn turn' : Turn β}

theorem result_bind {act : Act σ α} {a : α} (h : act.result s turn = ((.ok a, s'), turn'))
    (f : α → Act σ γ) : (act >>= f).result s turn = (f a).result s' turn' := by
  have hrun : Program.run (act.run.run s) turn = ((.ok a, s'), turn') := h
  refine (Program.run_bind (act.run.run s) _ turn).trans ?_
  rw [hrun]
  rfl

/-- What comes after an act that stops early is left out. -/
theorem result_stop {act : Act σ α} {stop : Stop}
    (h : act.result s turn = ((.error stop, s'), turn')) (f : α → Act σ γ) :
    (act >>= f).result s turn = ((.error stop, s'), turn') := by
  have hrun : Program.run (act.run.run s) turn = ((.error stop, s'), turn') := h
  refine (Program.run_bind (act.run.run s) _ turn).trans ?_
  rw [hrun]
  rfl

theorem result_get : (get : Act σ σ).result s turn = ((.ok s, s), turn) := rfl

theorem result_set : (set s' : Act σ PUnit).result s turn = ((.ok ⟨⟩, s'), turn) := rfl

theorem result_ask (r : Request) :
    (ask r : Act σ r.Answer).result s turn = ((.ok (turn.answer r).1, s), (turn.answer r).2) := rfl

theorem result_read {name expected : String} {view : Property → Option α} {value : Property} {a : α}
    (h : turn.script.property? turn.activation.node name = some value) (hv : view value = some a) :
    (read name expected view : Act σ α).result s turn = ((.ok a, s), turn) := by
  have hanswer : (turn.answer (.property name)).1 = some value := h
  rw [read, result_bind (result_ask _), hanswer]
  simp only [hv]
  rfl

theorem result_getInt {name : String} {value : Int64}
    (h : turn.script.property? turn.activation.node name = some (.int value)) :
    (getInt name : Act σ Int64).result s turn = ((.ok value, s), turn) :=
  result_read h rfl

theorem result_outputIndex {name : String} {index : Nat}
    (h : turn.node?.bind (·.outputIndex? name) = some index) :
    (outputIndex name : Act σ Nat).result s turn = ((.ok index, s), turn) := by
  have hanswer : (turn.answer (.outputIndex name)).1 = some index := h
  rw [outputIndex, result_bind (result_ask _), hanswer]
  rfl

theorem result_fire {name : String} {index : Nat}
    (h : turn.node?.bind (·.outputIndex? name) = some index) :
    (fire name : Act σ Unit).result s turn = ((.ok (), s), (turn.pulse index).2) := by
  rw [fire, result_bind (result_outputIndex h), pulse, result_bind (result_ask _)]
  rfl

theorem result_pushOutput {name : String} {index : Nat}
    (h : turn.node?.bind (·.outputIndex? name) = some index) :
    (pushOutput name : Act σ Unit).result s turn = ((.ok (), s), turn.pushTargets index) := by
  rw [pushOutput, result_bind (result_outputIndex h), result_ask]
  rfl

theorem result_write (name : String) (value : Property) :
    (write name value : Act σ Unit).result s turn = ((.ok (), s),
      { turn with script := (turn.script.setProperty turn.activation.node name value).2 }) := by
  rw [write, result_bind (result_ask _)]
  rfl

end Act

/-! ## Writes, frames and pulses -/

theorem Node.Write.outputs {f : Node β → Node β} (h : Write f) (node : Node β) :
    (f node).outputs = node.outputs := by
  cases h with
  | cell value =>
    dsimp only [setValue]
    split <;> rfl
  | plain name value =>
    dsimp only [setLocalProperty, setValue]
    split <;> split <;> rfl
  | default index value => rfl

/-- A write changes neither what a node is connected to nor its pulses. -/
theorem Script.outputs_writes : Script.AcrossWrites fun before after : Script β =>
    ∀ id, (after.node? id).map (·.outputs) = (before.node? id).map (·.outputs) where
  refl _ _ := rfl
  trans h h' id := (h' id).trans (h id)
  write script id f hf id' := by
    rw [script.node?_modifyNode f hf.id]
    split
    · rw [Option.map_map]
      exact congrArg (Option.map · _) (funext hf.outputs)
    · rfl

theorem Script.outputs_setProperty {script : Script β} {id : NodeId} {node : Node β}
    (hn : script.node? id = some node) (owner : NodeId) (name : String) (value : Property) :
    ∃ n, (script.setProperty owner name value).2.node? id = some n ∧ n.outputs = node.outputs := by
  have hsame := outputs_writes.setProperty script owner name value id
  rw [hn, Option.map_some] at hsame
  exact Option.map_eq_some_iff.1 hsame

theorem Node.outputs_activateOutput {node : Node β} {first second : OutputLink}
    (ho : node.outputs = [first, second]) :
    (node.activateOutput 1).2.outputs = [first, second.activate] := by
  simp [activateOutput, modifyOutput, ho]

/-- The frame for some activations; for none there is no frame. -/
def framed (activations : List Activation) : List (List Activation) :=
  if activations = [] then [] else [activations]

theorem flatten_framed (activations : List Activation) :
    (framed activations).flatten = activations := by
  unfold framed
  split <;> simp_all

namespace Turn

variable {turn : Turn β} {node : Node β}

theorem pushTargets_eq {index : Nat} {link : OutputLink} (hn : turn.node? = some node)
    (hl : node.outputs[index]? = some link) :
    turn.pushTargets index = { turn with frames := turn.frames ++ framed link.targets } := by
  unfold pushTargets framed
  rw [hn, Option.bind_some, hl, Option.elim_some]
  split
  · rename_i hnone
    rw [if_pos hnone, List.append_nil]
  · rename_i hsome
    rw [if_neg hsome]
    rfl

theorem pulse_eq {index : Nat} (hn : turn.node? = some node) :
    (turn.pulse index).2 = { turn with
      script := turn.script.modifyNode turn.activation.node (·.activateOutput index |>.2) } := by
  unfold pulse
  rw [hn]

/-- How often each output of the called node is pulsed. -/
def pulses (turn : Turn β) : List Nat := turn.node?.elim [] fun node => node.outputs.map (·.active)

variable {first second : OutputLink}

theorem pulses_eq (ho : node.outputs = [first, second]) (hn : turn.node? = some node) :
    turn.pulses = [first.active, second.active] := by
  rw [pulses, hn, Option.elim_some, ho]
  rfl

theorem fired_eq (ho : node.outputs = [first, second]) (hn : turn.node? = some node) :
    turn.fired = (List.replicate first.active first.targets).flatten
      ++ (List.replicate second.active second.targets).flatten := by
  rw [fired, hn, Option.elim_some, Node.fired, ho, List.flatMap_cons, List.flatMap_singleton]

end Turn

/-! ## Loops -/

/-- The behavior is that of a loop, whose private state is the index that it was at last. -/
def Counts [Behavior β] (loop : Int64 → β) : Prop :=
  ∀ index input first, Behavior.react (loop index) input first =
    (fun ended => (ended.1, loop ended.2)) <$> (Standard.forLoopAct first).start index

theorem Standard.counts : Counts Standard.forLoop := fun _ _ _ => rfl

/-- The outputs of a loop. -/
structure Exits (out finished : OutputLink) : Prop where
  names : out.name = "Out" ∧ finished.name = "Finished"
  quiet : out.active = 0 ∧ finished.active = 0

namespace Standard

variable {turn : Turn β} {node : Node β} {out finished : OutputLink} {index stop : Int64}

section call

variable (exits : Exits out finished) (hn : turn.node? = some node)
  (ho : node.outputs = [out, finished])

include exits hn ho

theorem outputIndex_out : turn.node?.bind (·.outputIndex? "Out") = some 0 := by
  rw [hn, Option.bind_some, Node.outputIndex?, ho]
  simp [position?, exits.names]

theorem outputIndex_finished : turn.node?.bind (·.outputIndex? "Finished") = some 1 := by
  rw [hn, Option.bind_some, Node.outputIndex?, ho]
  simp [position?, exits.names]

/-- Within its bounds a loop writes its index, opens a frame for what `Out` is connected to, if
anything is, and one that resumes it. -/
theorem iterateAct_within
    (hs : turn.script.property? turn.activation.node "End" = some (.int stop))
    (hle : index ≤ stop) :
    iterateAct.result index turn = ((.ok false, index),
      { turn with
        script :=
          (turn.script.setProperty turn.activation.node "CurrentIndex" (.int index)).2
        frames := turn.frames ++ framed out.targets ++ [[turn.activation.resumed]] }) := by
  let written : Turn β := { turn with script :=
    (turn.script.setProperty turn.activation.node "CurrentIndex" (.int index)).2 }
  obtain ⟨n, (hwritten : written.node? = some n), hsame⟩ :=
    Script.outputs_setProperty hn turn.activation.node "CurrentIndex" (.int index)
  have hindex := outputIndex_out exits hwritten (hsame.trans ho)
  have hpush : written.pushTargets 0
      = { written with frames := turn.frames ++ framed out.targets } :=
    Turn.pushTargets_eq hwritten (by rw [hsame, ho]; rfl)
  rw [iterateAct, Act.result_bind Act.result_get,
    Act.result_bind (Act.result_getInt hs), if_neg (Int64.not_lt.2 hle),
    Act.result_bind (Act.result_write _ _), Act.result_bind (Act.result_pushOutput hindex), hpush,
    Act.result_bind (Act.result_ask _)]
  rfl

/-- Past its end a loop pulses `Finished`. -/
theorem iterateAct_past
    (hs : turn.script.property? turn.activation.node "End" = some (.int stop))
    (hlt : stop < index) :
    iterateAct.result index turn = ((.ok false, index), { turn with
      script := turn.script.modifyNode turn.activation.node (·.activateOutput 1 |>.2) }) := by
  rw [iterateAct, Act.result_bind Act.result_get,
    Act.result_bind (Act.result_getInt hs), if_pos hlt,
    Act.result_bind (Act.result_fire (outputIndex_finished exits hn ho)), Turn.pulse_eq hn]
  rfl

end call

/-- A fresh loop is at its start. -/
theorem result_fresh (hs : turn.script.property? turn.activation.node "Start" = some (.int stop)) :
    (forLoopAct true).result index turn = iterateAct.result stop turn := by
  have hact : forLoopAct true = Act.getInt "Start" >>= fun s => set s >>= fun _ => iterateAct := rfl
  rw [hact, Act.result_bind (Act.result_getInt hs), Act.result_bind Act.result_set]

/-- A loop that is resumed is at the next index. -/
theorem result_resumed (h : index ≠ Int64.maxValue) :
    (forLoopAct false).result index turn = iterateAct.result (index + 1) turn := by
  have hstart := start_resumed index
  rw [if_neg h] at hstart
  exact congrArg (Program.run · turn) hstart

theorem result_overflow : (forLoopAct false).result Int64.maxValue turn
    = ((.error (.panicked (some "attempt to add with overflow")), Int64.maxValue), turn) := by
  have hstart := start_resumed Int64.maxValue
  rw [if_pos rfl] at hstart
  exact congrArg (Program.run · turn) hstart

end Standard

theorem OutputLink.map_skeleton_of_spent {links : List OutputLink}
    (h : ∀ link ∈ links, link.active = 0) : links.map skeleton = links := by
  refine (List.map_congr_left fun link hl => ?_).trans (List.map_id links)
  rw [skeleton, ← h link hl]
  rfl

/-! ## The turn of a call -/

namespace Script

/-- The script without the behavior of one node. -/
def vacated (script : Script β) (id : NodeId) : Script β :=
  script.modifyNode id ({ · with behavior := none })

/-- A property is read without a look at any behavior. -/
theorem property?_vacated (script : Script β) (id : NodeId) :
    (script.vacated id).property? = script.property? :=
  (Readable.modifyNode script id fun node => node.booked_none).property?

/-- The node is a loop, was last at the index and has the outputs. -/
def LoopsAt (script : Script β) (loop : Int64 → β) (out finished : OutputLink) (id : NodeId)
    (index : Int64) : Prop :=
  ∃ node, script.node? id = some node ∧ node.behavior = some (loop index)
    ∧ node.outputs = [out, finished]

variable {loop : Int64 → β} {out finished : OutputLink} {id : NodeId} {index : Int64}

theorem LoopsAt.spared {called : NodeId → Prop} {before after : Script β}
    (h : before.LoopsAt loop out finished id index) (hs : Spares called before after)
    (hid : ¬ called id) : after.LoopsAt loop out finished id index := by
  obtain ⟨node, hn, hb, ho⟩ := h
  obtain ⟨_, hn', ⟨properties, rfl, -⟩, -⟩ := hs.node id node hn hid
  exact ⟨_, hn', hb, ho⟩

end Script

namespace Moment

variable [Behavior β] {m : Moment β} {node : Node β} {loop : Int64 → β} {out finished : OutputLink}
  {current index stop : Int64} {result : (Verdict × Int64) × Turn β}

/-- A call of a loop within its bounds. It writes its index, and then opens a frame for what `Out`
is connected to and one that resumes the loop. -/
structure Iterates (m : Moment β) (out : OutputLink) (index : Int64) (call : Call β) : Prop where
  made : m.call? = some call
  verdict : call.verdict = .ok false
  written : call.turn.script = ((m.director.script.vacated m.activation.node).setProperty
    m.activation.node "CurrentIndex" (.int index)).2
  frames : call.turn.frames = framed out.targets ++ [[m.activation.resumed]]
  pulses : call.turn.pulses = [0, 0]
  fired : call.turn.fired = []
  found : call.found = []

/-- A call of a loop past its end. It pulses `Finished`. -/
structure Finishes (m : Moment β) (finished : OutputLink) (call : Call β) : Prop where
  made : m.call? = some call
  verdict : call.verdict = .ok false
  frames : call.turn.frames = []
  pulses : call.turn.pulses = [0, 1]
  fired : call.turn.fired = finished.targets
  found : call.found = []

/-- A call of a loop that has no next index. -/
structure Overflows (m : Moment β) (call : Call β) : Prop where
  made : m.call? = some call
  verdict : call.verdict = .error (.panicked (some "attempt to add with overflow"))
  frames : call.turn.frames = []
  pulses : call.turn.pulses = [0, 0]

variable (m node) in
/-- The turn that a call starts from. -/
def start : Turn β := m.director.turn m.activation node.graph

omit [Behavior β] in
theorem node?_start (ht : m.target? = some node) :
    (m.start node).node? = some { node with behavior := none } :=
  Director.node?_turn (target?_eq_some.1 ht).1 node.graph

omit [Behavior β] in
theorem property?_start (name : String) :
    (m.start node).script.property? (m.start node).activation.node name
      = m.director.script.property? m.activation.node name :=
  congrFun (congrFun (m.director.script.property?_vacated m.activation.node) _) name

/-- A call of a loop, given how its act ends. -/
theorem call?_of_result (counts : Counts loop) (ht : m.target? = some node)
    (hb : node.behavior = some (loop current))
    (h : (Standard.forLoopAct m.activation.first).result current (m.start node) = result) :
    m.call? = some ⟨result.1.1, result.2, result.2.signalled⟩
      ∧ m.answered node (loop current) = ((result.1.1, loop result.1.2), result.2) := by
  have hanswered : m.answered node (loop current) = ((result.1.1, loop result.1.2), result.2) := by
    rw [answered, counts, Program.run_map, ← h]
    rfl
  refine ⟨?_, hanswered⟩
  rw [call?_of_behavior ht hb, ← answered_signalled, hanswered]

section loops

variable (counts : Counts loop) (exits : Exits out finished) (ht : m.target? = some node)
  (hb : node.behavior = some (loop current)) (ho : node.outputs = [out, finished])

include counts exits ht hb ho

theorem iterates (hi : (Standard.forLoopAct m.activation.first).result current (m.start node)
      = Standard.iterateAct.result index (m.start node))
    (hs : m.director.script.property? m.activation.node "End" = some (.int stop))
    (hle : index ≤ stop) : ∃ call, m.Iterates out index call
      ∧ (m.answered node (loop current)).1.2 = loop index := by
  have hstart := node?_start ht
  rw [Standard.iterateAct_within exits hstart ho ((property?_start "End").trans hs) hle] at hi
  obtain ⟨hc, hanswered⟩ := call?_of_result counts ht hb hi
  obtain ⟨n, hn, hsame⟩ :=
    Script.outputs_setProperty hstart m.activation.node "CurrentIndex" (.int index)
  have houtputs : n.outputs = [out, finished] := hsame.trans ho
  refine ⟨_, ⟨hc, rfl, rfl, rfl, (Turn.pulses_eq houtputs ?_).trans ?_,
    (Turn.fired_eq houtputs ?_).trans ?_, rfl⟩, by rw [hanswered]⟩
  · exact hn
  · rw [exits.quiet.1, exits.quiet.2]
  · exact hn
  · rw [exits.quiet.1, exits.quiet.2]
    rfl

theorem finishes (hi : (Standard.forLoopAct m.activation.first).result current (m.start node)
      = Standard.iterateAct.result index (m.start node))
    (hs : m.director.script.property? m.activation.node "End" = some (.int stop))
    (hlt : stop < index) : ∃ call, m.Finishes finished call
      ∧ (m.answered node (loop current)).1.2 = loop index := by
  have hstart := node?_start ht
  rw [Standard.iterateAct_past exits hstart ho ((property?_start "End").trans hs) hlt] at hi
  obtain ⟨hc, hanswered⟩ := call?_of_result counts ht hb hi
  have hn := (m.start node).script.node?_modifyNode_self (·.activateOutput 1 |>.2)
    (fun n => (congrArg Node.id (n.activateOutput_skeleton 1) :)) m.activation.node
  rw [show (m.start node).script.node? m.activation.node = _ from hstart, Option.map_some] at hn
  have houtputs : (Node.activateOutput (β := β) { node with behavior := none } 1).2.outputs
      = [out, finished.activate] := Node.outputs_activateOutput ho
  have hactive : finished.activate.active = 1 := by
    rw [OutputLink.activate, exits.quiet.2]
    rfl
  refine ⟨_, ⟨hc, rfl, rfl, (Turn.pulses_eq houtputs ?_).trans ?_,
    (Turn.fired_eq houtputs ?_).trans ?_, rfl⟩, by rw [hanswered]⟩
  · exact hn
  · rw [exits.quiet.1, hactive]
  · exact hn
  · rw [exits.quiet.1, hactive]
    exact List.append_nil _

theorem overflows (hf : m.activation.first = false) (hmax : current = Int64.maxValue) :
    ∃ call, m.Overflows call
      ∧ (m.answered node (loop current)).1.2 = loop current := by
  subst hmax
  have hi : (Standard.forLoopAct false).result Int64.maxValue (m.start node) = _ :=
    Standard.result_overflow
  rw [← hf] at hi
  obtain ⟨hc, hanswered⟩ := call?_of_result counts ht hb hi
  have houtputs : Node.outputs (β := β) { node with behavior := none } = [out, finished] := ho
  have hpulses := Turn.pulses_eq houtputs (node?_start ht)
  rw [exits.quiet.1, exits.quiet.2] at hpulses
  exact ⟨_, ⟨hc, rfl, rfl, hpulses⟩, by rw [hanswered]⟩

end loops

/-! ## After the call -/

section after

variable {call : Call β}

theorem Iterates.queued (h : m.Iterates out index call) :
    m.entered = out.targets ++ [m.activation.resumed] ∧ m.carried = [] := by
  rw [entered_of_ok h.made h.verdict, carried_of_ok h.made h.verdict, h.fired, h.found, h.frames,
    List.flatten_append, flatten_framed]
  simp

theorem Finishes.queued (h : m.Finishes finished call) :
    m.entered = (if m.depth = 0 then [] else finished.targets)
      ∧ m.carried = (if m.depth = 0 then finished.targets else []) := by
  rw [entered_of_ok h.made h.verdict, carried_of_ok h.made h.verdict, h.frames, h.found, h.fired]
  simp

theorem Overflows.error (h : m.Overflows call) :
    call.error? = some (.panicked "attempt to add with overflow") := by
  rw [Call.error?, h.verdict]
  rfl

theorem Overflows.queued (h : m.Overflows call) : m.carried = [] ∧ m.entered = [] :=
  scheduled_of_error h.made h.error

variable {behavior : β}

/-- Where panics are caught the tick goes on after the call of a node that has its behavior. -/
theorem goes_of_caught (caught : m.director.config.catchPanics = true)
    (ht : m.target? = some node) (hb : node.behavior = some behavior) : ¬ m.outcome.1.IsHalt := by
  cases settles ht hb with
  | unwound text uncaught verdict fate =>
    rw [caught] at uncaught
    cases uncaught
  | booked book kept back goes script => exact goes

/-- Where panics are caught, what a call wrote stays. -/
theorem kept_of_caught (caught : m.director.config.catchPanics = true)
    (ht : m.target? = some node) (hb : node.behavior = some behavior)
    (hc : m.call? = some call) : ∃ book : Node β → Node β, (∀ n : Node β, n.Booked (book n))
      ∧ m.outcome.2.script = call.turn.script.modifyNode m.activation.node book := by
  obtain rfl := Option.some.inj ((call?_of_behavior ht hb).symm.trans hc)
  cases settles ht hb with
  | unwound text uncaught verdict fate =>
    rw [caught] at uncaught
    cases uncaught
  | booked book kept back goes hscript => exact ⟨book, kept, hscript⟩

/-- After its call a loop has its index in place and no pulse. -/
theorem loops_outcome (exits : Exits out finished) (caught : m.director.config.catchPanics = true)
    (ht : m.target? = some node) (hb : node.behavior = some behavior)
    (ho : node.outputs = [out, finished]) (hnext : (m.answered node behavior).1.2 = loop index) :
    m.outcome.2.script.LoopsAt loop out finished m.activation.node index := by
  have hgoes := goes_of_caught caught ht hb
  obtain ⟨n, hfound, hsame⟩ := answered_node? ht behavior
  cases m.handled with
  | discarded target outcome =>
    rw [target] at ht
    cases ht
  | halted halt => exact absurd halt hgoes
  | failed node' call script error target made verdict fate after =>
    obtain rfl := Option.some.inj (ht.symm.trans target)
    -- The outputs get back the pulses that they had before the call.
    rw [outcome_of_error ht hb made verdict fun _ _ => caught]
    refine ⟨n.setBack (m.answered node behavior).1.2 (node.outputs.map (·.active)), ?_, ?_, ?_⟩
    · refine (Script.node?_modifyNode_self _ _ (fun n => n.id_setBack _ _) _).trans ?_
      rw [hfound, Option.map_some]
    · exact congrArg some hnext
    · exact (restoreActive_eq (Node.outputs_of_skeleton hsame)).trans ho
  | completed node' call script latent target made verdict fate after spent =>
    obtain ⟨n', hn', hspent⟩ := spent
    cases settles ht hb with
    | unwound text uncaught verdict fate =>
      rw [caught] at uncaught
      cases uncaught
    | booked book kept back goes hscript =>
      have hbooked := (m.answered node behavior).2.script.node?_modifyNode_self book
        (fun n => (kept n).id) m.activation.node
      rw [← hscript, hfound, Option.map_some, hn'] at hbooked
      obtain rfl := Option.some.inj hbooked
      refine ⟨_, hn', (back n).trans (congrArg some hnext), ?_⟩
      -- The call is over and its pulses are spent, so all that is left of an output is its
      -- skeleton, and that is what it was.
      have hskeleton := Node.outputs_of_skeleton ((kept n).skeleton.trans hsame)
      have houtputs := (OutputLink.map_skeleton_of_spent hspent).symm.trans hskeleton
      rw [houtputs, ho]
      exact OutputLink.map_skeleton_of_spent (by simp [exits.quiet])

end after

end Moment

end FlowScript
