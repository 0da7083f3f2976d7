import FlowScript.Proofs.Conservation
import FlowScript.Proofs.Pairing
import FlowScript.Proofs.Writing

/-!
# What a tick leaves alone

A call writes to its own node and to the cells that are bound to it and alive (`Moment.spares`). So
a tick leaves every other node as it was, and of a cell that was not called it changes the value at
most (`update_untouched`). It never changes how the script is built, and a node whose last call
succeeded has no pulse left, since nobody else pulses its outputs.
-/

namespace FlowScript

variable {α β : Type}

namespace Node

theorem accepts_of_skeleton {node node' : Node β} (h : node'.skeleton = node.skeleton) :
    node'.accepts = node.accepts := by
  have hkind : node'.kind = node.kind := (congrArg Node.kind h :)
  have hinputs : node'.inputs = node.inputs := (congrArg Node.inputs h :)
  funext input
  rw [accepts, accepts, isValueNode, isValueNode, hkind, hinputs]

/-- At most the value of a cell has changed. -/
def Recelled (node node' : Node β) : Prop :=
  ∃ properties, node' = { node with properties := properties }
    ∧ ∀ name, (name = cellName → node.isValueNode = false) →
      Keyed.get? properties name = Keyed.get? node.properties name

namespace Recelled

variable {first second third : Node β}

theorem refl (node : Node β) : node.Recelled node := ⟨node.properties, rfl, fun _ _ => rfl⟩

theorem trans (h : first.Recelled second) (h' : second.Recelled third) : first.Recelled third := by
  obtain ⟨properties, rfl, hp⟩ := h
  obtain ⟨properties', rfl, hp'⟩ := h'
  exact ⟨properties', rfl, fun name hn => (hp' name hn).trans (hp name hn)⟩

theorem setValue {node : Node β} (hv : node.isValueNode = true) (value : Property) :
    node.Recelled (node.setValue value).2 := by
  unfold Node.setValue
  split
  · refine ⟨_, rfl, fun name hn => ?_⟩
    have hne : cellName ≠ name := by
      rintro rfl
      have hplain := hn rfl
      rw [hv] at hplain
      cases hplain
    rw [Keyed.get?_insert, if_neg hne]
  · exact .refl node

end Recelled

end Node

namespace Script

theorem liveBindings_of_skeleton {script script' : Script β}
    (h : script'.skeleton = script.skeleton) : script'.liveBindings = script.liveBindings := by
  have hcell : script'.isCell = script.isCell := funext (isCell_of_members (members_of_skeleton h))
  funext ref
  rw [liveBindings_eq_filter, liveBindings_eq_filter, bound_of_skeleton h, hcell]

/-- The cell is bound to a link of one of the nodes. -/
def Serves (script : Script β) (called : NodeId → Prop) (cell : NodeId) : Prop :=
  ∃ id index, called id ∧ cell ∈ script.liveBindings ⟨id, index⟩

theorem Serves.of_skeleton {script script' : Script β} (h : script'.skeleton = script.skeleton)
    {called : NodeId → Prop} {cell : NodeId} (hs : script'.Serves called cell) :
    script.Serves called cell := by
  obtain ⟨id, index, hid, hcell⟩ := hs
  rw [liveBindings_of_skeleton h] at hcell
  exact ⟨id, index, hid, hcell⟩

/-- From one script to the other only the called nodes and the cells bound to them have changed, and
of those cells only the values. -/
structure Spares (called : NodeId → Prop) (before after : Script β) : Prop where
  skeleton : after.skeleton = before.skeleton
  node (id : NodeId) (node : Node β) : before.node? id = some node → ¬ called id →
    ∃ node', after.node? id = some node' ∧ node.Recelled node'
      ∧ (¬ before.Serves called id → node' = node)

namespace Spares

variable {called called' : NodeId → Prop} {first second third : Script β}

theorem refl (script : Script β) : Spares called script script :=
  ⟨rfl, fun _ node hn _ => ⟨node, hn, .refl node, fun _ => rfl⟩⟩

theorem trans (h : Spares called first second) (h' : Spares called second third) :
    Spares called first third := by
  refine ⟨h'.skeleton.trans h.skeleton, fun id node hn hid => ?_⟩
  obtain ⟨between, hb, hcell, hsame⟩ := h.node id node hn hid
  obtain ⟨node', hn', hcell', hsame'⟩ := h'.node id between hb hid
  refine ⟨node', hn', hcell.trans hcell', fun hs => ?_⟩
  rw [hsame' fun hs' => hs (hs'.of_skeleton h.skeleton), hsame hs]

theorem mono (h : Spares called first second) (hc : ∀ id, called id → called' id) :
    Spares called' first second := by
  refine ⟨h.skeleton, fun id node hn hid => ?_⟩
  obtain ⟨node', hn', hcell, hsame⟩ := h.node id node hn fun hid' => hid (hc id hid')
  refine ⟨node', hn', hcell, fun hs => hsame ?_⟩
  rintro ⟨owner, index, howner, hbound⟩
  exact hs ⟨owner, index, hc owner howner, hbound⟩

theorem modifyNode (script : Script β) {id : NodeId} (hc : called id) {f : Node β → Node β}
    (hf : ∀ node, (f node).skeleton = node.skeleton) :
    Spares called script (script.modifyNode id f) := by
  have hid : ∀ n, (f n).id = n.id := fun n => (congrArg Node.id (hf n) :)
  refine ⟨script.modifyNode_skeleton id hf, fun id' node hn hid' => ?_⟩
  have hne : id' ≠ id := fun heq => hid' (heq ▸ hc)
  refine ⟨node, ?_, .refl node, fun _ => rfl⟩
  rw [node?_modifyNode script f hid, if_neg hne, hn]

theorem setCell (script : Script β) {cell : NodeId} (hs : script.Serves called cell)
    (value : Property) : Spares called script (script.setCell cell value).2 := by
  refine ⟨script.setCell_skeleton cell value, fun id node hn hid => ?_⟩
  have ⟨owner, index, howner, hbound⟩ := hs
  unfold Script.setCell
  split
  · exact ⟨node, hn, .refl node, fun _ => rfl⟩
  · rw [node?_modifyNode script _ fun n => n.setValue_id value]
    split
    · rename_i heq
      subst heq
      obtain ⟨same, hsame, hvalue⟩ := isCell_iff.1 (mem_liveBindings.1 hbound).2
      obtain rfl := Option.some.inj (hn.symm.trans hsame)
      exact ⟨_, by rw [hn, Option.map_some], .setValue hvalue value, fun hns => absurd hs hns⟩
    · exact ⟨node, hn, .refl node, fun _ => rfl⟩

theorem setLinkValue (script : Script β) {ref : ValueLinkRef} (hc : called ref.node) (slot : Nat)
    (value : Property) : Spares called script (script.setLinkValue ref slot value).2 := by
  unfold Script.setLinkValue
  split
  · split
    · exact .modifyNode script hc fun n => n.modifyLink_default_skeleton ref.index value
    · exact .refl script
  · split
    · rename_i cell hcell
      exact .setCell script ⟨ref.node, ref.index, hc, List.mem_of_getElem? hcell⟩ value
    · exact .refl script

theorem setSlots {ref : ValueLinkRef} (hc : called ref.node) (value : Property) :
    ∀ (slots : Nat) (script : Script β),
      Spares called script (Script.setSlots ref value slots script).2
  | 0, script => .refl script
  | slots + 1, script => by
    rw [Script.setSlots]
    exact (setSlots hc value slots script).trans (.setLinkValue _ hc slots value)

theorem setProperty (script : Script β) {id : NodeId} (hc : called id) (name : String)
    (value : Property) : Spares called script (script.setProperty id name value).2 := by
  unfold Script.setProperty
  split
  · exact .refl script
  split
  · exact .setSlots hc value _ script
  · exact .modifyNode script hc fun n => n.setLocalProperty_skeleton name value

/-- Pulses stay as they are at a node that is not called. -/
theorem spent (h : Spares called first second) {id : NodeId} (hid : ¬ called id) {node : Node β}
    (hn : first.node? id = some node) (hs : ∀ output ∈ node.outputs, output.active = 0) :
    ∃ node', second.node? id = some node' ∧ ∀ output ∈ node'.outputs, output.active = 0 := by
  obtain ⟨_, hn', ⟨properties, rfl, -⟩, -⟩ := h.node id node hn hid
  exact ⟨_, hn', hs⟩

end Spares

end Script

/-! ## Calls -/

theorem Turn.answer_spares (turn : Turn β) (r : Request) :
    Script.Spares (Eq turn.activation.node) turn.script (turn.answer r).2.script := by
  cases r with
  | pulse output =>
    simp only [answer, Turn.pulse]
    split
    · exact .refl _
    · exact .modifyNode _ rfl fun n => n.activateOutput_skeleton output
  | setProperty name value => exact .setProperty _ rfl name value
  | setSlot link index value =>
    simp only [answer, Turn.edit, Turn.link?]
    rcases turn.node?.bind (·.linkIndex? link) with _ | own
    · exact .refl _
    · refine .setLinkValue turn.script ?_ index value
      rfl
  | pushTargets output =>
    simp only [answer, pushTargets]
    split <;> exact .refl _
  | _ => exact .refl _

theorem Program.run_spares (p : Program α) (turn : Turn β) :
    Script.Spares (Eq turn.activation.node) turn.script (p.run turn).2.script := by
  induction p generalizing turn with
  | done a => exact .refl _
  | ask r next ih =>
    have hrest := ih (turn.answer r).1 (turn.answer r).2
    rw [turn.answer_activation] at hrest
    exact (turn.answer_spares r).trans hrest

section ticks

variable [Behavior β]

namespace Moment

/-- The node is called in one of the moments. -/
def Calls (moments : List (Moment β)) (id : NodeId) : Prop :=
  ∃ m ∈ moments, m.activation.node = id ∧ m.isInvoked = true

theorem answered_spares (m : Moment β) (node : Node β) (behavior : β) :
    Script.Spares (Eq m.activation.node) m.director.script
      (m.answered node behavior).2.script := by
  have out : Script.Spares (Eq m.activation.node) m.director.script
      (m.director.turn m.activation node.graph).script :=
    .modifyNode _ rfl fun n => n.booked_none.skeleton
  exact out.trans (Program.run_spares _ (m.director.turn m.activation node.graph))

/-- Handling an activation changes the node that is called and the cells bound to it. -/
theorem spares (m : Moment β) : Script.Spares (Calls [m]) m.director.script m.outcome.2.script := by
  have invoked {node : Node β} {behavior : β} (ht : m.target? = some node)
      (hb : node.behavior = some behavior) : ∀ id, m.activation.node = id → Calls [m] id := by
    rintro id rfl
    refine ⟨m, List.mem_cons_self, rfl, ?_⟩
    rw [isInvoked, call?_of_behavior ht hb, Option.isSome_some]
  generalize m.outcome.2.script = left, m.leaves = hleft
  cases hleft with
  | untouched => exact .refl _
  | unwound target owned => exact (m.answered_spares _ _).mono (invoked target owned)
  | @booked node behavior book target owned kept back =>
    refine ((m.answered_spares node behavior).trans ?_).mono (invoked target owned)
    exact .modifyNode _ rfl fun n => (kept n).skeleton

end Moment

/-- After any moment of a tick, only what is called from then on changes. -/
theorem Director.spares_update {director after : Director β} {fuel : Nat} {sim real : Float}
    {ending : Except Halt Report} (h : director.update fuel sim real = some (ending, after)) :
    Script.Spares (Moment.Calls (director.history fuel sim real)) director.script after.script
      ∧ ∀ earlier m later, director.history fuel sim real = earlier ++ m :: later →
        Script.Spares (Moment.Calls later) m.outcome.2.script after.script := by
  refine script_induction (motive := fun before history after =>
    Script.Spares (Moment.Calls history) before after
      ∧ ∀ earlier m later, history = earlier ++ m :: later →
        Script.Spares (Moment.Calls later) m.outcome.2.script after) ?_ ?_ h
  · intro script
    exact ⟨.refl script, fun earlier m later h => by simp at h⟩
  · rintro m history after ⟨hrest, hparts⟩
    refine ⟨?_, fun earlier m' later heq => ?_⟩
    · refine (m.spares.mono ?_).trans (hrest.mono ?_)
      · rintro id ⟨m', hm', hcalled⟩
        exact ⟨m', List.mem_cons.2 (.inl (List.mem_singleton.1 hm')), hcalled⟩
      · rintro id ⟨m', hm', hcalled⟩
        exact ⟨m', List.mem_cons_of_mem _ hm', hcalled⟩
    · rcases earlier with _ | ⟨first, earlier⟩
      · obtain ⟨rfl, rfl⟩ := List.cons.inj heq
        exact hrest
      · exact hparts earlier m' later (List.cons.inj heq).2

/-- A tick changes data and never how the script is built. Of a node that was not called it changes
the value of its cell at most, and this only if the cell is bound to a link of a node that was
called. A node whose last call succeeded has no pulse left. -/
theorem Director.update_untouched {director after : Director β} {fuel : Nat} {sim real : Float}
    {report : Report} (h : director.update fuel sim real = some (.ok report, after)) :
    after.script.skeleton = director.script.skeleton
      ∧ (∀ id node, director.script.node? id = some node →
        ¬ Moment.Calls (director.history fuel sim real) id →
          ∃ properties, after.script.node? id = some { node with properties := properties }
            ∧ (∀ name, (name = cellName → node.isValueNode = false) →
              Keyed.get? properties name = Keyed.get? node.properties name)
            ∧ ((∀ owner index, Moment.Calls (director.history fuel sim real) owner →
              id ∉ director.script.liveBindings ⟨owner, index⟩) → properties = node.properties))
      ∧ ∀ earlier m later, director.history fuel sim real = earlier ++ m :: later →
        (∃ call latent, m.call? = some call ∧ call.verdict = .ok latent) →
          ¬ Moment.Calls later m.activation.node → after.Spent m.activation.node := by
  obtain ⟨hspares, hparts⟩ := spares_update h
  refine ⟨hspares.skeleton, fun id node hn hid => ?_, ?_⟩
  · obtain ⟨_, hn', ⟨properties, rfl, hplain⟩, hsame⟩ := hspares.node id node hn hid
    refine ⟨properties, hn', hplain, fun hfree => ?_⟩
    have hunbound : ¬ director.script.Serves
        (Moment.Calls (director.history fuel sim real)) id := by
      rintro ⟨owner, index, howner, hbound⟩
      exact hfree owner index howner hbound
    exact (congrArg Node.properties (hsame hunbound) :)
  · rintro earlier m later heq ⟨call, latent, hc, hv⟩ hlater
    obtain ⟨hrun, hhistory⟩ := run_of_update h
    have hspent : m.outcome.2.Spent m.activation.node := by
      refine Drain.forall_mem_history (P := fun m => ∀ call latent, m.call? = some call →
        call.verdict = .ok latent → m.outcome.2.Spent m.activation.node)
        (fun _ _ _ hh call latent => hh.spent) hrun m ?_ call latent hc hv
      rw [← hhistory, heq]
      exact List.mem_append_right _ List.mem_cons_self
    obtain ⟨node, hn, hs⟩ := hspent
    exact (hparts earlier m later heq).spent hlater hn hs

end ticks

/-- A node that writes to a link and pulses its output when it is called. -/
def scribeNode : NodeBuilder Agent :=
  (((NodeBuilder.action (coreType "Scribe") (.rules [{
    steps := [⟨"write", .setProperty "Sum" (.int 3), false⟩, ⟨"pulse", .activate "Out", false⟩] }]
      0)).input "In").output "Out").link (.output "Sum" (.int 0))

/-- A cell for a number. -/
def slate : NodeBuilder Agent := .value ⟨"Slate", "Test"⟩ (.int 5) (.standard .inert)

/-- How a host comes to call a scribe with one of two cells bound, beside a relay that it pulsed. -/
def scribing : List (Move Agent) :=
  [.edit (.addNode rootGraph scribeNode), .edit (.addNode rootGraph slate),
    .edit (.addNode rootGraph slate), .edit (.addNode rootGraph Script.relayNode),
    .edit (.connectValue ⟨⟨0⟩, 0⟩ ⟨1⟩), .edit (.activateOutput ⟨3⟩ 0),
    .enqueue { node := ⟨0⟩, input := some 0 }]

/-- The director that is about to call the scribe. -/
def scriptorium : Director Agent :=
  scribing.foldl Director.move { script := .withRootName "root" }

/-- The scribe writes to the cell that is bound to it. The other cell stays as it was, and so does
the relay with its pulse. -/
theorem Director.update_untouched_of_scriptorium : ∃ report after,
    scriptorium.update 2 0 0 = some (.ok report, after)
      ∧ after.script.skeleton = scriptorium.script.skeleton
      ∧ (after.script.linkValue? ⟨⟨0⟩, 0⟩ 0).bind (·.asInt?) = some 3 ∧ after.Spent ⟨0⟩
      ∧ after.script.node? ⟨2⟩ = some (slate.build ⟨2⟩ rootGraph)
      ∧ after.script.node? ⟨3⟩ = scriptorium.script.node? ⟨3⟩
      ∧ (after.script.output? ⟨⟨3⟩, 0⟩).map (·.active) = some 1 := by
  have hc : (scriptorium.update 2 0 0).map (fun ending => (ending.1.toBool,
      (ending.2.script.linkValue? ⟨⟨0⟩, 0⟩ 0).bind (·.asInt?))) = some (true, some 3) := by
    decide +kernel
  have hcalls : (scriptorium.history 2 0 0).map (fun m => (m.activation.node,
      m.call?.map (·.verdict.toBool))) = [(⟨0⟩, some true)] := by
    decide +kernel
  rcases h : scriptorium.update 2 0 0 with _ | ⟨_ | report, after⟩ <;> rw [h] at hc
  · simp at hc
  · simp [Except.toBool] at hc
  have hvalue : (after.script.linkValue? ⟨⟨0⟩, 0⟩ 0).bind (·.asInt?) = some 3 := by
    simpa [Except.toBool] using hc
  obtain ⟨hskeleton, huntouched, hspent⟩ := update_untouched h
  obtain ⟨m, hhistory, hm⟩ := List.map_eq_singleton_iff.1 hcalls
  obtain ⟨hnode, hsucceeds⟩ := Prod.mk.inj hm
  rw [hhistory] at huntouched hspent
  have called : ∀ id, Moment.Calls [m] id → id = ⟨0⟩ := by
    rintro id ⟨m', hm', rfl, -⟩
    rw [List.mem_singleton.1 hm', hnode]
  -- Only the first cell is bound to a link of the scribe, which has no other link.
  have unbound : ∀ id : NodeId, id ≠ ⟨1⟩ → ∀ owner index, Moment.Calls [m] owner →
      id ∉ scriptorium.script.liveBindings ⟨owner, index⟩ := by
    intro id hid owner index howner
    rw [called owner howner]
    rcases index with _ | index
    · have hbound : scriptorium.script.liveBindings ⟨⟨0⟩, 0⟩ = [⟨1⟩] := by decide +kernel
      rw [hbound, List.mem_singleton]
      exact hid
    · have hbound : scriptorium.script.liveBindings ⟨⟨0⟩, index + 1⟩ = [] := rfl
      rw [hbound]
      exact List.not_mem_nil
  have kept : ∀ id node, scriptorium.script.node? id = some node → id ≠ ⟨0⟩ → id ≠ ⟨1⟩ →
      after.script.node? id = some node := by
    intro id node hn hscribe hcell
    obtain ⟨properties, hn', -, hsame⟩ := huntouched id node hn fun hc => hscribe (called id hc)
    rw [hn', hsame (unbound id hcell)]
  have hrelay : ∃ relay, scriptorium.script.node? ⟨3⟩ = some relay
      ∧ relay.outputs[0]?.map (·.active) = some 1 := ⟨_, rfl, rfl⟩
  obtain ⟨relay, hfound, hpulse⟩ := hrelay
  have hkept := kept ⟨3⟩ relay hfound (by decide) (by decide)
  refine ⟨report, after, rfl, hskeleton, hvalue, ?_, kept ⟨2⟩ _ rfl (by decide) (by decide), ?_, ?_⟩
  · obtain ⟨call, hc, hok⟩ := Option.map_eq_some_iff.1 hsucceeds
    rcases hv : call.verdict with stop | latent <;> rw [hv] at hok
    · cases hok
    rw [← hnode]
    refine hspent [] m [] rfl ⟨call, latent, hc, hv⟩ ?_
    rintro ⟨m', hm', -⟩
    cases hm'
  · rw [hkept, hfound]
  · rw [Script.output?, hkept, Option.bind_some, hpulse]

end FlowScript
