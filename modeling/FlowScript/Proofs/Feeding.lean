import FlowScript.Proofs.Ensures
import FlowScript.Proofs.Pairing
import FlowScript.Proofs.Writing

/-!
# What a call leads to in its tick

A pulse calls what an output of the node is connected to, and so does a frame of a standard node,
unless it resumes the node itself; only loops open frames (`Moment.frames_open`). In the script a
call moves the private state of its own behavior at most (`Moment.moves`), and a loop that is
resumed counts up whenever it succeeds (`Moment.counts`).
-/

namespace FlowScript

variable {β : Type}

namespace Script

/-- An output of the first node is connected to an input of the second. -/
def Feeds (script : Script β) (a b : NodeId) : Prop :=
  ∃ output input, script.Connected ⟨a, output⟩ input ∧ input.node = b

theorem feeds_of_skeleton {script script' : Script β} (h : script'.skeleton = script.skeleton) :
    script'.Feeds = script.Feeds := by
  unfold Feeds Connected
  rw [targets_of_skeleton h]

/-- A frame either resumes an activation or calls what its node is connected to. -/
def Opens (script : Script β) (a : Activation) (frame : List Activation) : Prop :=
  frame = [a.resumed] ∨ ∀ b ∈ frame, script.Feeds a.node b.node

/-- The node is a loop. -/
def IsLoop (script : Script Standard) (id : NodeId) : Prop :=
  ∃ current, script.behavior? id = some (.forLoop current)

/-- Apart from the private state of some behaviors, nothing but values and pulses has changed. -/
structure Moves (moved : NodeId → Prop) (before after : Script Standard) : Prop where
  skeleton : after.skeleton = before.skeleton
  blank (id : NodeId) : (after.behavior? id).map Standard.blank
    = (before.behavior? id).map Standard.blank
  apart (id : NodeId) : ¬ moved id → after.behavior? id = before.behavior? id

namespace Moves

variable {moved moved' : NodeId → Prop} {first second third : Script Standard}

theorem refl (script : Script Standard) : Moves moved script script :=
  ⟨rfl, fun _ => rfl, fun _ _ => rfl⟩

theorem trans (h : Moves moved first second) (h' : Moves moved second third) :
    Moves moved first third where
  skeleton := h'.skeleton.trans h.skeleton
  blank id := (h'.blank id).trans (h.blank id)
  apart id hid := (h'.apart id hid).trans (h.apart id hid)

theorem mono (h : Moves moved first second) (hm : ∀ id, moved id → moved' id) :
    Moves moved' first second :=
  ⟨h.skeleton, h.blank, fun id hid => h.apart id fun hid' => hid (hm id hid')⟩

theorem feeds (h : Moves moved first second) : second.Feeds = first.Feeds :=
  feeds_of_skeleton h.skeleton

theorem isLoop (h : Moves moved first second) (id : NodeId) :
    second.IsLoop id ↔ first.IsLoop id := by
  have loop : ∀ script : Script Standard, script.IsLoop id
      ↔ (script.behavior? id).map Standard.blank = some (.forLoop 0) := by
    intro script
    unfold IsLoop
    rcases script.behavior? id with _ | behavior
    · simp
    · cases behavior <;> simp [Standard.blank]
  rw [loop, loop, h.blank id]

end Moves

end Script

/-! ## Pulses and frames -/

theorem OutputLink.connected_of_mem_targets {link : OutputLink} {b : Activation}
    (h : b ∈ link.targets) : ∃ input ∈ link.connected, input.node = b.node := by
  obtain ⟨input, hi, rfl⟩ := List.mem_map.1 h
  exact ⟨input, hi, rfl⟩

namespace Turn

theorem feeds_of_mem_targets {turn : Turn β} {node : Node β} (hn : turn.node? = some node)
    {index : Nat} {link : OutputLink} (hl : node.outputs[index]? = some link) {b : Activation}
    (hb : b ∈ link.targets) : turn.script.Feeds turn.activation.node b.node := by
  obtain ⟨input, hi, heq⟩ := OutputLink.connected_of_mem_targets hb
  refine ⟨index, input, ?_, heq⟩
  have ho : turn.script.output? ⟨turn.activation.node, index⟩ = some link := by
    rw [Script.output?, show turn.script.node? turn.activation.node = some node from hn,
      Option.bind_some, hl]
  rwa [Script.Connected, Script.targets_of_output? ho]

theorem fired_feeds (turn : Turn β) :
    ∀ b ∈ turn.fired, turn.script.Feeds turn.activation.node b.node := by
  intro b hb
  unfold fired at hb
  rcases hn : turn.node? with _ | node
  · rw [hn] at hb
    cases hb
  rw [hn] at hb
  obtain ⟨link, hl, hb⟩ := List.mem_flatMap.1 hb
  obtain ⟨targets, ht, hb⟩ := List.mem_flatten.1 hb
  rw [List.eq_of_mem_replicate ht] at hb
  obtain ⟨index, hindex⟩ := List.getElem?_of_mem hl
  exact feeds_of_mem_targets hn hindex hb

/-- A request of a standard behavior opens frames of the two permitted kinds only. -/
theorem frames_answer (turn : Turn Standard) {behavior : Standard} {r : Request}
    (hr : behavior.MayAsk r) :
    (turn.answer r).2.frames = turn.frames ∨ behavior.blank = .forLoop 0
      ∧ ∃ frame, turn.script.Opens turn.activation frame
        ∧ (turn.answer r).2.frames = turn.frames ++ [frame] := by
  cases r with
  | pulse output =>
    refine .inl ?_
    simp only [answer, pulse]
    split <;> rfl
  | pushNode node input => exact hr.elim
  | pushTargets output =>
    simp only [answer, pushTargets]
    split
    · exact .inl rfl
    · refine .inr ⟨hr, _, .inr fun b hb => ?_, rfl⟩
      rcases hn : turn.node? with _ | node
      · rw [hn] at hb
        cases hb
      rcases hl : node.outputs[output]? with _ | link
      · simp only [hn, Option.bind_some, hl] at hb
        cases hb
      · simp only [hn, Option.bind_some, hl] at hb
        exact feeds_of_mem_targets hn hl hb
  | pushSelf => exact .inr ⟨hr, _, .inl rfl, rfl⟩
  | _ => exact .inl rfl

end Turn

namespace Standard

/-- Only a loop opens frames, and these resume it or call what it is connected to. -/
theorem react_frames (behavior : Standard) (input : Option Nat) (first : Bool)
    (turn : Turn Standard) (hnew : turn.frames = []) :
    (∀ frame ∈ ((react behavior input first).run turn).2.frames,
        turn.script.Opens turn.activation frame)
      ∧ (((react behavior input first).run turn).2.frames ≠ [] → behavior.blank = forLoop 0) := by
  refine ((react_mayAsk behavior input first).keeps
    (fun t => t.activation = turn.activation ∧ t.script.skeleton = turn.script.skeleton
      ∧ (∀ frame ∈ t.frames, turn.script.Opens turn.activation frame)
      ∧ (t.frames ≠ [] → behavior.blank = forLoop 0)) ?_
    ⟨rfl, rfl, by simp [hnew], by simp [hnew]⟩).2.2
  rintro t r hr ⟨hactivation, hskeleton, hopens, hloop⟩
  refine ⟨(t.answer_activation r).trans hactivation, (t.answer_skeleton r).trans hskeleton, ?_⟩
  rcases t.frames_answer hr with hsame | ⟨hblank, frame, hframe, hadded⟩
  · rw [hsame]
    exact ⟨hopens, hloop⟩
  · rw [hadded]
    refine ⟨fun frame' hf => ?_, fun _ => hblank⟩
    rcases List.mem_append.1 hf with hf | hf
    · exact hopens frame' hf
    · rw [List.mem_singleton.1 hf]
      rwa [Script.Opens, Script.feeds_of_skeleton hskeleton, hactivation] at hframe

end Standard

namespace Moment

theorem call?_eq_some [Behavior β] {m : Moment β} {call : Call β} (h : m.call? = some call) :
    ∃ node behavior, m.target? = some node ∧ node.behavior = some behavior
      ∧ call.verdict = (m.answered node behavior).1.1
      ∧ call.turn = (m.answered node behavior).2 := by
  unfold call? at h
  obtain ⟨node, ht, h⟩ := Option.bind_eq_some_iff.1 h
  obtain ⟨behavior, hb, rfl⟩ := Option.map_eq_some_iff.1 h
  exact ⟨node, behavior, ht, hb, rfl, rfl⟩

theorem turn_skeleton (m : Moment β) (node : Node β) :
    (m.director.turn m.activation node.graph).script.skeleton = m.director.script.skeleton :=
  m.director.script.modifyNode_skeleton m.activation.node fun n => n.booked_none.skeleton

theorem fired_feeds [Behavior β] {m : Moment β} {call : Call β} (h : m.call? = some call) :
    ∀ b ∈ call.turn.fired, m.director.script.Feeds m.activation.node b.node := by
  obtain ⟨node, behavior, -, -, -, hturn⟩ := call?_eq_some h
  have hfeeds := call.turn.fired_feeds
  rwa [hturn, m.answered_activation, Script.feeds_of_skeleton (m.answered_skeleton node behavior),
    ← hturn] at hfeeds

theorem behavior?_of_target? {m : Moment β} {node : Node β} (ht : m.target? = some node) :
    m.director.script.behavior? m.activation.node = node.behavior := by
  rw [Script.behavior?, (target?_eq_some.1 ht).1, Option.bind_some]

variable {m : Moment Standard}

theorem frames_open {call : Call Standard} (h : m.call? = some call) :
    (∀ frame ∈ call.turn.frames, m.director.script.Opens m.activation frame)
      ∧ (call.turn.frames ≠ [] → m.director.script.IsLoop m.activation.node) := by
  obtain ⟨node, behavior, ht, hb, -, hturn⟩ := call?_eq_some h
  obtain ⟨hopens, hloop⟩ := Standard.react_frames behavior m.activation.input m.activation.first
    (m.director.turn m.activation node.graph) rfl
  rw [hturn]
  refine ⟨fun frame hf => ?_, fun hne => ?_⟩
  · have hframe := hopens frame hf
    rwa [Script.Opens, Script.feeds_of_skeleton (m.turn_skeleton node)] at hframe
  · have hblank := hloop hne
    cases behavior <;> cases hblank
    exact ⟨_, (behavior?_of_target? ht).trans hb⟩

/-! ## Behaviors -/

/-- What an activation leaves of the behaviors, if its tick goes on. -/
theorem behavior?_outcome [Behavior β] (m : Moment β) (goes : ¬ m.outcome.1.IsHalt) :
    (m.target? = none ∧ m.outcome.2.script = m.director.script)
      ∨ ∃ node behavior, m.target? = some node ∧ node.behavior = some behavior
        ∧ ∀ id, m.outcome.2.script.behavior? id = if id = m.activation.node
          then some (m.answered node behavior).1.2 else m.director.script.behavior? id := by
  rcases ht : m.target? with _ | node
  · rw [outcome_of_target?_none ht]
    exact .inl ⟨rfl, rfl⟩
  rcases hb : node.behavior with _ | behavior
  · rw [outcome_of_behavior_none ht hb] at goes
    exact absurd trivial goes
  cases settles ht hb with
  | unwound text uncaught verdict fate =>
    rw [fate] at goes
    exact absurd trivial goes
  | booked book kept back goes script =>
    refine .inr ⟨node, behavior, rfl, hb, fun id => ?_⟩
    have hafter := (m.answered node behavior).2.script.behavior?_modifyNode m.activation.node
      (fun n => (kept n).id) back id
    obtain ⟨n, hn, -⟩ := answered_node? ht behavior
    rw [script, hafter, hn, Option.bind_some]
    split
    · rfl
    · rename_i hid
      exact m.answered_behavior? node behavior hid

/-- An activation moves the private state of its own node at most. -/
theorem moves (m : Moment Standard) (goes : ¬ m.outcome.1.IsHalt) :
    Script.Moves (· = m.activation.node) m.director.script m.outcome.2.script := by
  rcases m.behavior?_outcome goes with ⟨-, hsame⟩ | ⟨node, behavior, ht, hb, hafter⟩
  · rw [hsame]
    exact .refl _
  refine ⟨Script.skeleton_lasting.outcome m, fun id => ?_, fun id hid => ?_⟩
  · rw [hafter]
    split
    · rename_i hid
      rw [hid, behavior?_of_target? ht, hb, Option.map_some, Option.map_some]
      exact congrArg some (behavior.react_blank m.activation.input m.activation.first _)
    · rfl
  · rw [hafter, if_neg hid]

end Moment

/-! ## Loops count -/

namespace Act

variable {α γ σ : Type}

/-- However the act is answered, it leaves its private state and does not panic. -/
def Still (β : Type) (act : Act σ α) : Prop :=
  ∀ s, Program.Ensures (fun _ : Turn β => True) (act.run.run s) fun ended =>
    ended.2 = s ∧ ∀ text, ended.1 ≠ .error (.panicked text)

namespace Still

theorem pure {a : α} : (pure a : Act σ α).Still β := fun _ => .done ⟨rfl, nofun⟩

theorem bind {act : Act σ α} {f : α → Act σ γ} (h : act.Still β) (hf : ∀ a, (f a).Still β) :
    (act >>= f).Still β := by
  intro s
  refine Program.Ensures.bind (h s) fun ended hended => ?_
  obtain ⟨stop | a, s'⟩ := ended
  · refine .done ⟨hended.1, fun text heq => hended.2 text ?_⟩
    exact congrArg Except.error (Except.error.inj heq)
  · obtain rfl : s' = s := hended.1
    exact hf a s'

theorem ask {r : Request} : (Act.ask r : Act σ r.Answer).Still β :=
  fun _ _ _ => ⟨trivial, rfl, nofun⟩

theorem get : (get : Act σ σ).Still β := fun _ => .done ⟨rfl, nofun⟩

theorem fail {error : NodeError} : (Act.fail error : Act σ α).Still β :=
  fun _ => .done ⟨rfl, nofun⟩

theorem read (name expected : String) (view : Property → Option α) :
    (Act.read name expected view : Act σ α).Still β := by
  refine .bind .ask fun answer => ?_
  rcases answer with _ | value
  · exact .fail
  · dsimp only
    split
    · exact .pure
    · exact .fail

theorem outputIndex (name : String) : (Act.outputIndex name : Act σ Nat).Still β := by
  refine .bind .ask fun answer => ?_
  rcases answer with _ | index
  · exact .fail
  · exact .pure

theorem fire (name : String) : (Act.fire name : Act σ Unit).Still β :=
  .bind (.outputIndex name) fun _ => .bind .ask fun _ => .pure

theorem pushOutput (name : String) : (Act.pushOutput name : Act σ Unit).Still β :=
  .bind (.outputIndex name) fun _ => .ask

theorem write (name : String) (value : Property) : (Act.write name value : Act σ Unit).Still β :=
  .bind .ask fun _ => .pure

end Still

end Act

theorem Int64.toInt_succ {i : Int64} (h : i ≠ Int64.maxValue) : (i + 1).toInt = i.toInt + 1 := by
  have hmax : i.toInt ≠ Int64.maxValue.toInt := fun heq => h (Int64.toInt_inj.1 heq)
  have hlt := i.toInt_lt
  have hle := i.le_toInt
  rw [Int64.toInt_add, show (1 : Int64).toInt = 1 from rfl, Int.bmod_eq_of_le] <;>
    simp only [show Int64.maxValue.toInt = 9223372036854775807 from rfl] at hmax <;> omega

namespace Standard

/-- What a call of a loop does once it is at its index. -/
def iterateAct : Act Int64 Bool := do
  let current ← get
  if (← Act.getInt "End") < current then
    Act.fire "Finished"
    return false
  Act.write "CurrentIndex" (.int current)
  Act.pushOutput "Out"
  Act.ask .pushSelf
  return false

theorem iterateAct_still : iterateAct.Still β := by
  refine .bind .get fun current => .bind (.read _ _ _) fun last => ?_
  split
  · exact .bind (.fire _) fun _ => .pure
  · exact .bind (.write _ _) fun _ => .bind (.pushOutput _) fun _ => .bind .ask fun _ => .pure

/-- A loop that is resumed takes the next index, and panics when there is none. -/
theorem start_resumed (current : Int64) : (forLoopAct false).start current =
    if current = Int64.maxValue then
      .done (.error (.panicked (some "attempt to add with overflow")), current)
    else iterateAct.start (current + 1) := by
  have hact : (forLoopAct false).start current =
      ((successor current >>= fun next => set next >>= fun _ => iterateAct) : Act Int64 Bool).start
        current := rfl
  rw [hact, successor]
  split <;> rfl

/-- A loop that is resumed never counts down, and it counts up whenever it succeeds. -/
theorem forLoop_counts (current : Int64) (input : Option Nat) (turn : Turn Standard) :
    ∃ next, ((react (forLoop current) input false).run turn).1.2 = forLoop next
      ∧ current.toInt ≤ next.toInt
      ∧ ∀ latent, ((react (forLoop current) input false).run turn).1.1 = .ok latent →
        current.toInt < next.toInt := by
  rw [react, Program.run_map, start_resumed]
  split
  · exact ⟨current, rfl, Int.le_refl _, fun _ h => by cases h⟩
  · rename_i hmax
    have hsucc := Int64.toInt_succ hmax
    refine ⟨current + 1, congrArg forLoop (iterateAct_still _ turn trivial).2.1, ?_,
      fun _ _ => ?_⟩ <;>
      omega

end Standard

namespace Moment

/-- A loop that is resumed has not counted down when the tick goes on, and it has counted up if it
succeeded. -/
theorem counts (m : Moment Standard) (goes : ¬ m.outcome.1.IsHalt)
    (hf : m.activation.first = false) {current : Int64}
    (hb : m.director.script.behavior? m.activation.node = some (.forLoop current)) :
    ∃ next, m.outcome.2.script.behavior? m.activation.node = some (.forLoop next)
      ∧ current.toInt ≤ next.toInt
      ∧ ∀ call latent, m.call? = some call → call.verdict = .ok latent →
        current.toInt < next.toInt := by
  rcases m.behavior?_outcome goes with ⟨ht, hsame⟩ | ⟨node, behavior, ht, hbn, hafter⟩
  · refine ⟨current, by rw [hsame, hb], Int.le_refl _, fun call latent hc => ?_⟩
    rw [call?, ht] at hc
    cases hc
  · obtain rfl : behavior = .forLoop current :=
      Option.some.inj (hbn.symm.trans ((behavior?_of_target? ht).symm.trans hb))
    have hreact := Standard.forLoop_counts current m.activation.input
      (m.director.turn m.activation node.graph)
    rw [← hf] at hreact
    obtain ⟨next, hnext, hle, hlt⟩ := hreact
    refine ⟨next, ?_, hle, fun call latent hc hv => ?_⟩
    · rw [hafter, if_pos rfl]
      exact congrArg some hnext
    · rw [call?_of_behavior ht hbn] at hc
      obtain rfl := Option.some.inj hc
      exact hlt latent hv

end Moment

end FlowScript
