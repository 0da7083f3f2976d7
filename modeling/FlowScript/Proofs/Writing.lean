import FlowScript.Proofs.Asks

/-!
# What a call can write

A call writes to its own node and to the cells that are bound to it, and to nothing else
(`Asks.written`). There it changes values and pulses: no write puts a behavior in place or takes one
away, and none changes a plain property under a name that the behavior does not write.
-/

namespace FlowScript

variable {α β : Type}

/-- Only values and pulses have changed, and of the properties only those of the given names. -/
structure Node.Rewritten (names : List String) (node node' : Node β) : Prop where
  skeleton : node'.skeleton = node.skeleton
  behavior : node'.behavior = node.behavior
  properties (name : String) : name ∉ names →
    Keyed.get? node'.properties name = Keyed.get? node.properties name

namespace Node

variable {names : List String}

theorem rewritten_setValue (hc : cellName ∈ names) (node : Node β) (value : Property) :
    node.Rewritten names (node.setValue value).2 := by
  refine ⟨node.setValue_skeleton value, ?_, fun name hn => ?_⟩
  · unfold setValue
    split <;> rfl
  · have hne : cellName ≠ name := fun h => hn (h ▸ hc)
    unfold setValue
    split
    · exact (Keyed.get?_insert _ _ _ _).trans (if_neg hne)
    · rfl

theorem rewritten_setLocalProperty (hc : cellName ∈ names) {name : String} (hn : name ∈ names)
    (node : Node β) (value : Property) :
    node.Rewritten names (node.setLocalProperty name value).2 := by
  have hskeleton := node.setLocalProperty_skeleton name value
  unfold setLocalProperty at hskeleton ⊢
  split
  · exact node.rewritten_setValue hc value
  rename_i hcell
  rw [if_neg hcell] at hskeleton
  split
  · rename_i links hset
    simp only [hset] at hskeleton
    exact ⟨hskeleton, rfl, fun _ _ => rfl⟩
  · rename_i hset
    simp only [hset] at hskeleton
    refine ⟨hskeleton, rfl, fun other ho => ?_⟩
    have hne : name ≠ other := fun h => ho (h ▸ hn)
    exact (Keyed.get?_insert _ _ _ _).trans (if_neg hne)

theorem rewritten_setDefault (node : Node β) (index : Nat) (value : Property) :
    node.Rewritten names (node.modifyLink index ({ · with default := value })) :=
  ⟨node.modifyLink_default_skeleton index value, rfl, fun _ _ => rfl⟩

theorem rewritten_activateOutput (node : Node β) (index : Nat) :
    node.Rewritten names (node.activateOutput index).2 := by
  refine ⟨node.activateOutput_skeleton index, ?_, fun _ _ => ?_⟩ <;>
    · unfold activateOutput
      split <;> rfl

end Node

namespace Script

/-- The behavior that a node has in place. -/
def behavior? (script : Script β) (id : NodeId) : Option β :=
  (script.node? id).bind (·.behavior)

/-- A plain property of a node. -/
def plain? (script : Script β) (id : NodeId) (name : String) : Option Property :=
  (script.node? id).bind fun node => Keyed.get? node.properties name

/-- The script with the nodes of one side only. -/
def only (side : NodeId → Bool) (script : Script β) : Script β :=
  { script with nodes := script.nodes.filter fun node => side node.id }

theorem only_modifyNode (side : NodeId → Bool) (script : Script β) (id : NodeId)
    {f : Node β → Node β} (hf : ∀ n, (f n).id = n.id) :
    (script.modifyNode id f).only side = (script.only side).modifyNode id f := by
  have hid : ∀ n : Node β, (if n.id = id then f n else n).id = n.id := by
    intro n
    split
    · exact hf n
    · rfl
  simp only [only, modifyNode, List.filter_map, Function.comp_def, hid]

/-- A node of the other side is changed without a trace. -/
theorem only_modifyNode_of_not {side : NodeId → Bool} (script : Script β) {id : NodeId}
    (hs : side id = false) {f : Node β → Node β} (hf : ∀ n, (f n).id = n.id) :
    (script.modifyNode id f).only side = script.only side := by
  have hnodes : ((script.only side).nodes.map fun n => if n.id = id then f n else n)
      = (script.only side).nodes := by
    refine (List.map_congr_left fun n hn => ?_).trans (List.map_id _)
    have hside : side n.id = true := by simpa using (List.mem_filter.1 hn).2
    rw [if_neg fun h : n.id = id => by rw [h, hs] at hside; cases hside]
    rfl
  rw [only_modifyNode side script id hf, modifyNode, hnodes]

/-- What a call of a node can write to: the node, and the cells that are bound to it. -/
def Reaches (script : Script β) (owner id : NodeId) : Prop :=
  id = owner ∨ ∃ index, id ∈ script.bound ⟨owner, index⟩

/-- What writes of the given names at the touched nodes leave of a script. -/
structure Written (touched : NodeId → Prop) (names : List String) (before after : Script β) :
    Prop where
  skeleton : after.skeleton = before.skeleton
  apart (side : NodeId → Bool) : (∀ id, touched id → side id = false) →
    after.only side = before.only side
  behavior (id : NodeId) : after.behavior? id = before.behavior? id
  plain (id : NodeId) (name : String) : name ∉ names → after.plain? id name = before.plain? id name

theorem bound_of_skeleton {script script' : Script β} (h : script'.skeleton = script.skeleton) :
    script'.bound = script.bound := by
  have hbound : ∀ s : Script β, s.skeleton.bound = s.bound := by
    intro s
    funext ref
    rw [bound, link?_skeleton, bound]
    rcases s.link? ref with _ | link <;> rfl
  rw [← hbound, h, hbound]

theorem Reaches.of_skeleton {script script' : Script β} (h : script'.skeleton = script.skeleton)
    {owner id : NodeId} (hr : script'.Reaches owner id) : script.Reaches owner id := by
  unfold Reaches at hr ⊢
  rwa [bound_of_skeleton h] at hr

namespace Written

variable {touched : NodeId → Prop} {names : List String} {first second third : Script β}

theorem refl (script : Script β) : Written touched names script script :=
  ⟨rfl, fun _ _ => rfl, fun _ => rfl, fun _ _ _ => rfl⟩

theorem trans (h : Written touched names first second) (h' : Written touched names second third) :
    Written touched names first third where
  skeleton := h'.skeleton.trans h.skeleton
  apart side hs := (h'.apart side hs).trans (h.apart side hs)
  behavior id := (h'.behavior id).trans (h.behavior id)
  plain id name hn := (h'.plain id name hn).trans (h.plain id name hn)

theorem mono {names' : List String} (h : Written touched names first second)
    (hn : ∀ name ∈ names, name ∈ names') : Written touched names' first second :=
  ⟨h.skeleton, h.apart, h.behavior, fun id name hm => h.plain id name fun hm' => hm (hn name hm')⟩

theorem modifyNode (script : Script β) {id : NodeId} (ht : touched id) {f : Node β → Node β}
    (hf : ∀ n : Node β, n.Rewritten names (f n)) :
    Written touched names script (script.modifyNode id f) := by
  have hid : ∀ n, (f n).id = n.id := fun n => (congrArg Node.id (hf n).skeleton :)
  have hnode := script.node?_modifyNode f hid id
  refine ⟨script.modifyNode_skeleton id fun n => (hf n).skeleton,
    fun side hs => script.only_modifyNode_of_not (hs id ht) hid, fun id' => ?_,
    fun id' name hn => ?_⟩
  · rw [behavior?, hnode, behavior?]
    split
    · rw [Option.bind_map]
      exact congrArg _ (funext fun n => (hf n).behavior)
    · rfl
  · rw [plain?, hnode, plain?]
    split
    · rw [Option.bind_map]
      exact congrArg _ (funext fun n => (hf n).properties name hn)
    · rfl

theorem setCell (hc : cellName ∈ names) (script : Script β) {cell : NodeId} (ht : touched cell)
    (value : Property) : Written touched names script (script.setCell cell value).2 := by
  unfold Script.setCell
  split
  · exact .refl script
  · exact .modifyNode script ht fun n => n.rewritten_setValue hc value

theorem setLinkValue (hc : cellName ∈ names) (script : Script β) {ref : ValueLinkRef}
    (hr : ∀ id, script.Reaches ref.node id → touched id) (slot : Nat) (value : Property) :
    Written touched names script (script.setLinkValue ref slot value).2 := by
  unfold Script.setLinkValue
  split
  · split
    · exact .modifyNode script (hr _ (.inl rfl)) fun n => n.rewritten_setDefault ref.index value
    · exact .refl script
  · split
    · rename_i cell hcell
      have hbound := (mem_liveBindings.1 (List.mem_of_getElem? hcell)).1
      exact .setCell hc script (hr _ (.inr ⟨ref.index, hbound⟩)) value
    · exact .refl script

theorem setSlots (hc : cellName ∈ names) {ref : ValueLinkRef} (value : Property) : ∀ (slots : Nat)
    (script : Script β), (∀ id, script.Reaches ref.node id → touched id) →
      Written touched names script (Script.setSlots ref value slots script).2
  | 0, script, _ => .refl script
  | slots + 1, script, hr => by
    have before := setSlots hc value slots script hr
    rw [Script.setSlots]
    exact before.trans
      (.setLinkValue hc _ (fun id h => hr id (h.of_skeleton before.skeleton)) slots value)

theorem setProperty (hc : cellName ∈ names) {name : String} (hn : name ∈ names)
    (script : Script β) {id : NodeId} (hr : ∀ id', script.Reaches id id' → touched id')
    (value : Property) : Written touched names script (script.setProperty id name value).2 := by
  unfold Script.setProperty
  split
  · exact .refl script
  split
  · exact .setSlots hc value _ script hr
  · exact .modifyNode script (hr id (.inl rfl)) fun n => n.rewritten_setLocalProperty hc hn value

end Written

end Script

/-- The names that a request can write under. -/
def Request.named : Request → List String
  | .setProperty name _ => [cellName, name]
  | _ => [cellName]

theorem Request.named_of_within {names : List String} {r : Request} (h : r.Within names) :
    ∀ name ∈ r.named, name ∈ cellName :: names := by
  intro name hn
  unfold named at hn
  split at hn
  · rcases List.mem_cons.1 hn with rfl | hn
    · exact List.mem_cons_self
    · rw [List.mem_singleton.1 hn]
      exact List.mem_cons_of_mem _ h
  · rw [List.mem_singleton.1 hn]
    exact List.mem_cons_self

/-- What a request writes is at the node that is called or at a cell that is bound to it. -/
theorem Turn.answer_written (turn : Turn β) (r : Request) :
    Script.Written (turn.script.Reaches turn.activation.node) r.named turn.script
      (turn.answer r).2.script := by
  cases r with
  | pulse output =>
    simp only [answer, Turn.pulse]
    split
    · exact .refl _
    · exact .modifyNode _ (.inl rfl) fun n => n.rewritten_activateOutput output
  | setProperty name value =>
    exact .setProperty List.mem_cons_self (List.mem_cons_of_mem _ List.mem_cons_self) _
      (fun _ h => h) value
  | setSlot link index value =>
    simp only [answer, Turn.edit, Turn.link?]
    rcases turn.node?.bind (·.linkIndex? link) with _ | own
    · exact .refl _
    · refine Script.Written.setLinkValue List.mem_cons_self turn.script ?_ index value
      exact fun _ h => h
  | pushTargets output =>
    simp only [answer, pushTargets]
    split <;> exact .refl _
  | _ => exact .refl _

namespace Program

theorem run_behavior? (p : Program α) (turn : Turn β) :
    (p.run turn).2.script.behavior? = turn.script.behavior? := by
  induction p generalizing turn with
  | done a => rfl
  | ask r next ih =>
    rw [run, ih]
    exact funext (turn.answer_written r).behavior

theorem run_skeleton (p : Program α) (turn : Turn β) :
    (p.run turn).2.script.skeleton = turn.script.skeleton :=
  Script.skeleton_lasting.run p turn

/-- A call writes to what its node reaches, under the names that its behavior writes. -/
theorem Asks.written {names : List String} {p : Program α} (hp : p.Asks (Request.Within names))
    (turn : Turn β) : Script.Written (turn.script.Reaches turn.activation.node) (cellName :: names)
      turn.script (p.run turn).2.script := by
  refine (hp.keeps (fun t => t.activation = turn.activation
    ∧ Script.Written (turn.script.Reaches turn.activation.node) (cellName :: names) turn.script
      t.script) ?_ ⟨rfl, .refl _⟩).2
  rintro t r hr ⟨hactivation, hwritten⟩
  refine ⟨(t.answer_activation r).trans hactivation, hwritten.trans ?_⟩
  have hanswer := t.answer_written r
  rw [hactivation] at hanswer
  refine ⟨hanswer.skeleton, fun side hs => hanswer.apart side fun id h => hs id ?_,
    hanswer.behavior, (hanswer.mono (Request.named_of_within hr)).plain⟩
  exact h.of_skeleton hwritten.skeleton

end Program

/-! ## How a call ends -/

namespace Script

/-- Every node has its behavior in place. -/
def Manned (script : Script β) : Prop :=
  ∀ id node, script.node? id = some node → node.behavior.isSome = true

theorem node?_of_skeleton {script script' : Script β} (h : script'.skeleton = script.skeleton)
    {id : NodeId} {node' : Node β} (hn : script'.node? id = some node') :
    ∃ node, script.node? id = some node ∧ node'.skeleton = node.skeleton := by
  have hfound := script'.node?_skeleton id
  rw [h, node?_skeleton, hn] at hfound
  obtain ⟨node, hnode, hsame⟩ := Option.map_eq_some_iff.1 hfound
  exact ⟨node, hnode, hsame.symm⟩

theorem behavior?_modifyNode (script : Script β) (id : NodeId) {f : Node β → Node β}
    (hid : ∀ n, (f n).id = n.id) {behavior : Option β} (hf : ∀ n, (f n).behavior = behavior)
    (id' : NodeId) : (script.modifyNode id f).behavior? id' =
      if id' = id then (script.node? id).bind fun _ => behavior else script.behavior? id' := by
  rw [behavior?, node?_modifyNode script f hid, behavior?]
  split
  · rename_i heq
    rw [heq, Option.bind_map]
    exact congrArg _ (funext hf)
  · rfl

end Script

namespace Moment

variable [Behavior β] {m : Moment β} {node : Node β} {behavior : β}

/-- How the call of a target that has its behavior in place ends. Either a panic is let through, or
the tick goes on with the behavior back in place and the pulses booked. -/
inductive Settles (m : Moment β) (node : Node β) (behavior : β) : Prop where
  | unwound (text : Option String) (uncaught : m.director.config.catchPanics = false)
      (verdict : (m.answered node behavior).1.1 = .error (.panicked text))
      (fate : m.outcome.1 = .unwound text)
  | booked (book : Node β → Node β) (kept : ∀ n : Node β, n.Booked (book n))
      (back : ∀ n, (book n).behavior = some (m.answered node behavior).1.2)
      (goes : ¬ m.outcome.1.IsHalt)
      (script : m.outcome.2.script =
        (m.answered node behavior).2.script.modifyNode m.activation.node book)

theorem answered_skeleton (m : Moment β) (node : Node β) (behavior : β) :
    (m.answered node behavior).2.script.skeleton = m.director.script.skeleton :=
  (Program.run_skeleton _ _).trans
    (m.director.script.modifyNode_skeleton m.activation.node fun n => n.booked_none.skeleton)

theorem answered_behavior? (m : Moment β) (node : Node β) (behavior : β) {id : NodeId}
    (hid : id ≠ m.activation.node) :
    (m.answered node behavior).2.script.behavior? id = m.director.script.behavior? id := by
  have hturn : (m.director.turn m.activation node.graph).script.behavior? id = _ :=
    m.director.script.behavior?_modifyNode m.activation.node
      (f := ({ · with behavior := none })) (fun _ => rfl) (fun _ => rfl) id
  rw [answered, Program.run_behavior?, hturn, if_neg hid]

/-- A behavior that is there after an activation was there before, or is what the called one came
to. -/
theorem behavior?_left (m : Moment β) {id : NodeId} {behavior' : β}
    (h : m.outcome.2.script.behavior? id = some behavior') :
    m.director.script.behavior? id = some behavior' ∨ ∃ node behavior, id = m.activation.node
      ∧ m.target? = some node ∧ node.behavior = some behavior
      ∧ behavior' = (m.answered node behavior).1.2 := by
  generalize m.outcome.2.script = after, m.leaves = hleft at h
  cases hleft with
  | untouched => exact .inl h
  | @unwound node behavior target owned =>
    by_cases hid : id = m.activation.node
    · -- The behavior of the node is out.
      have hturn : (m.director.turn m.activation node.graph).script.behavior? id = _ :=
        m.director.script.behavior?_modifyNode m.activation.node
          (f := ({ · with behavior := none })) (fun _ => rfl) (fun _ => rfl) id
      rw [answered, Program.run_behavior?, hturn, if_pos hid] at h
      obtain ⟨n, -, hnone⟩ := Option.bind_eq_some_iff.1 h
      cases hnone
    · exact .inl ((m.answered_behavior? node behavior hid).symm.trans h)
  | @booked node behavior book target owned kept back =>
    rw [Script.behavior?_modifyNode _ _ (fun n => (kept n).id) back] at h
    split at h
    · rename_i hid
      obtain ⟨n, -, hb⟩ := Option.bind_eq_some_iff.1 h
      exact .inr ⟨node, behavior, hid, target, owned, (Option.some.inj hb).symm⟩
    · rename_i hid
      exact .inl ((m.answered_behavior? node behavior hid).symm.trans h)

theorem answered_node? (ht : m.target? = some node) (behavior : β) :
    ∃ n, (m.answered node behavior).2.script.node? m.activation.node = some n
      ∧ n.skeleton = node.skeleton := by
  obtain ⟨hn, -⟩ := target?_eq_some.1 ht
  obtain ⟨n, hfound, hsame⟩ := Script.node?_of_skeleton (m.answered_skeleton node behavior).symm hn
  exact ⟨n, hfound, hsame.symm⟩

theorem settles (ht : m.target? = some node) (hb : node.behavior = some behavior) :
    m.Settles node behavior := by
  obtain ⟨n, hn, -⟩ := answered_node? ht behavior
  have ho := outcome_of_behavior ht hb
  have hnode := m.answered_activation node behavior
  have withdrawn (director : Director β)
      (hd : director.script = (m.answered node behavior).2.script) (before : List Nat)
      (error : NodeError)
      (ho : m.outcome = director.withdraw (m.record node) (m.answered node behavior).1.2 before
        error) : m.Settles node behavior := by
    have hfound : director.script.node? (m.record node).node = some n := by rw [hd]; exact hn
    unfold Director.withdraw at ho
    simp only [hfound] at ho
    refine .booked _ (fun n => ⟨_, _, rfl, restoreActive_skeleton n.outputs before⟩) (fun _ => rfl)
      (by rw [ho]; exact id) ?_
    rw [ho, hd]
    rfl
  unfold Director.settle at ho
  split at ho
  · rename_i latent hv
    have hfound : ((m.director.observeCall (m.record node)).keep
        (m.answered node behavior).2).script.node? (m.answered node behavior).2.activation.node
          = some n := by
      rw [hnode]
      exact hn
    unfold Director.complete at ho
    simp only [hfound] at ho
    refine .booked (fun n => { n with
        behavior := some (m.answered node behavior).1.2, outputs := n.outputs.map (·.drain.2) })
      (fun n => ⟨_, _, rfl, ?_⟩) (fun _ => rfl) (by rw [ho]; exact id) ?_
    · rw [List.map_map]
      refine List.map_congr_left fun link _ => ?_
      simp only [Function.comp, OutputLink.drain_eq, OutputLink.skeleton]
    · rw [ho, hnode]
      rfl
  · exact withdrawn _ rfl _ _ ho
  · rename_i text hv
    split at ho
    · exact withdrawn _ rfl _ _ ho
    · rename_i hcatch
      exact .unwound text (Bool.eq_false_iff.2 hcatch) hv (by rw [ho])

/-- At a target that has its behavior in place the director does not break. -/
theorem Settles.not_faulted (h : m.Settles node behavior) (reason : String) :
    m.outcome.1 ≠ .faulted reason := by
  intro hf
  cases h with
  | unwound text uncaught verdict fate => rw [hf] at fate; cases fate
  | booked book kept back goes script => exact goes (by rw [hf]; trivial)

/-- Where every behavior is in place, all are again once the call is over. -/
theorem Settles.manned {book : Node β → Node β} (hs : m.director.script.Manned)
    (kept : ∀ n : Node β, n.Booked (book n))
    (back : ∀ n, (book n).behavior = some (m.answered node behavior).1.2) :
    ((m.answered node behavior).2.script.modifyNode m.activation.node book).Manned := by
  intro id n hn
  rw [Script.node?_modifyNode _ _ fun n => (kept n).id] at hn
  split at hn
  · obtain ⟨n, -, rfl⟩ := Option.map_eq_some_iff.1 hn
    rw [back, Option.isSome_some]
  · rename_i hid
    obtain ⟨old, hold, -⟩ := Script.node?_of_skeleton (m.answered_skeleton node behavior) hn
    have hsame := m.answered_behavior? node behavior hid
    rw [Script.behavior?, Script.behavior?, hn, hold, Option.bind_some, Option.bind_some] at hsame
    rw [hsame]
    exact hs id old hold

/-- A standard behavior writes under its own names only. -/
theorem answered_written (m : Moment Standard) (node : Node Standard) (behavior : Standard) :
    Script.Written ((m.director.turn m.activation node.graph).script.Reaches m.activation.node)
      (cellName :: behavior.writes) (m.director.turn m.activation node.graph).script
      (m.answered node behavior).2.script :=
  ((Standard.react_mayAsk behavior m.activation.input m.activation.first).mono
    fun _ => Standard.within_of_mayAsk).written _

end Moment

end FlowScript
