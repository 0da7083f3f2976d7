import FlowScript.Proofs.Feeding

/-!
# Two sides of a script

If no connection and no binding of a script crosses from one side to the other, then what a node of
one side reads and writes is the same with the other side left out: each operation commutes with
leaving it out (`setProperty_only`), and so do the requests of a call (`Turn.answer_only`).
-/

namespace FlowScript

variable {β : Type}

namespace Script

/-- No control link and no value binding crosses between the sides. -/
structure Parted (side : NodeId → Bool) (script : Script β) : Prop where
  control (output : OutputRef) (input : InputRef) : script.Connected output input →
    side output.node = side input.node
  values (link : ValueLinkRef) (cell : NodeId) : cell ∈ script.bound link →
    side link.node = side cell

/-- Whether a script is parted can be read off the lists of its links. -/
theorem Parted.of_listed {side : NodeId → Bool} {script : Script β}
    (control : ∀ node ∈ script.nodes, ∀ link ∈ node.outputs, ∀ input ∈ link.connected,
      side node.id = side input.node)
    (values : ∀ node ∈ script.nodes, ∀ link ∈ node.links, ∀ cell ∈ link.bound,
      side node.id = side cell) : script.Parted side where
  control output input hc := by
    obtain ⟨node, hn, hid, link, hl, hi⟩ := hc.listed
    exact hid ▸ control node hn link hl input hi
  values ref cell hb := by
    obtain ⟨link, hl, hcell⟩ := link?_of_mem_bound hb
    obtain ⟨node, hn, hlink⟩ := Option.bind_eq_some_iff.1 hl
    exact id_of_node? hn ▸ values node (List.mem_of_find?_eq_some hn) link
      (List.mem_of_getElem? hlink) cell hcell

theorem Parted.of_skeleton {side : NodeId → Bool} {script script' : Script β}
    (h : script.Parted side) (hs : script'.skeleton = script.skeleton) : script'.Parted side where
  control output input hc :=
    h.control output input (by rwa [Connected, targets_of_skeleton hs] at hc)
  values link cell hb := h.values link cell (by rwa [bound_of_skeleton hs] at hb)

theorem Parted.feeds {side : NodeId → Bool} {script : Script β} (h : script.Parted side)
    {a b : NodeId} (hf : script.Feeds a b) : side b = side a := by
  obtain ⟨output, input, hc, rfl⟩ := hf
  exact (h.control _ input hc).symm

/-- What a call of a node can write to is on the side of the node. -/
theorem Parted.reaches {side : NodeId → Bool} {script : Script β} (h : script.Parted side)
    {owner id : NodeId} (hr : script.Reaches owner id) : side id = side owner := by
  rcases hr with rfl | ⟨index, hb⟩
  · rfl
  · exact (h.values ⟨owner, index⟩ id hb).symm

/-! ## Reading -/

section reading

variable {side : NodeId → Bool} {script : Script β}

theorem node?_only (id : NodeId) :
    (script.only side).node? id = if side id = true then script.node? id else none := by
  unfold node? only
  rw [List.find?_filter]
  split
  · rename_i hs
    congr 1
    funext n
    by_cases hn : n.id = id <;> simp [hn, hs]
  · rename_i hs
    rw [List.find?_eq_none]
    intro n _ hn
    simp only [decide_eq_true_eq, Bool.decide_and, Bool.and_eq_true] at hn
    exact hs (hn.2 ▸ hn.1)

theorem node?_only_of {id : NodeId} (hs : side id = true) :
    (script.only side).node? id = script.node? id := by
  rw [node?_only, if_pos hs]

theorem link?_only {ref : ValueLinkRef} (hs : side ref.node = true) :
    (script.only side).link? ref = script.link? ref := by
  rw [link?, node?_only_of hs, link?]

variable (h : script.Parted side)

include h

theorem liveBindings_only {ref : ValueLinkRef} (hs : side ref.node = true) :
    (script.only side).liveBindings ref = script.liveBindings ref := by
  unfold liveBindings
  rw [link?_only hs]
  rcases hl : script.link? ref with _ | link
  · rfl
  · refine List.filter_congr fun cell hc => ?_
    have hbound : cell ∈ script.bound ref := by rwa [bound_of_link? hl]
    rw [isCell, node?_only_of ((h.values ref cell hbound).symm.trans hs), isCell]

theorem slotCount_only {ref : ValueLinkRef} (hs : side ref.node = true) :
    (script.only side).slotCount ref = script.slotCount ref := by
  rw [slotCount, liveBindings_only h hs, slotCount]

theorem side_of_liveBindings {ref : ValueLinkRef} (hs : side ref.node = true) {cell : NodeId}
    (hc : cell ∈ script.liveBindings ref) : side cell = true :=
  (h.values ref cell (mem_liveBindings.1 hc).1).symm.trans hs

theorem linkValue?_only {ref : ValueLinkRef} (hs : side ref.node = true) (slot : Nat) :
    (script.only side).linkValue? ref slot = script.linkValue? ref slot := by
  have hside : ∀ cell ∈ script.liveBindings ref, side cell = true :=
    fun _ hc => side_of_liveBindings h hs hc
  unfold linkValue?
  rw [liveBindings_only h hs, link?_only hs]
  split
  · rfl
  · rename_i hcells
    rcases hc : (script.liveBindings ref)[slot]? with _ | cell
    · rfl
    · rw [Option.bind_some, Option.bind_some,
        node?_only_of (hside cell (List.mem_of_getElem? hc))]

theorem property?_only {id : NodeId} (hs : side id = true) (name : String) :
    (script.only side).property? id name = script.property? id name := by
  unfold property?
  rw [node?_only_of hs]
  split
  · rfl
  · split
    · exact linkValue?_only h hs 0
    · rfl

/-! ## Writing -/

omit h in
theorem setCell_only {cell : NodeId} (hs : side cell = true) (value : Property) :
    (script.only side).setCell cell value = (script.setCell cell value).map id (only side) := by
  unfold setCell
  rw [node?_only_of hs]
  split
  · rfl
  · exact Prod.ext rfl (only_modifyNode side script cell (f := fun n => (n.setValue value).2)
      fun n => (congrArg Node.id (n.setValue_skeleton value) :)).symm

theorem setLinkValue_only {ref : ValueLinkRef} (hs : side ref.node = true) (slot : Nat)
    (value : Property) : (script.only side).setLinkValue ref slot value =
      (script.setLinkValue ref slot value).map id (only side) := by
  have hside : ∀ cell ∈ script.liveBindings ref, side cell = true :=
    fun _ hc => side_of_liveBindings h hs hc
  unfold setLinkValue
  rw [liveBindings_only h hs, link?_only hs]
  split
  · split
    · exact Prod.ext rfl (only_modifyNode side script ref.node
        (f := (·.modifyLink ref.index ({ · with default := value }))) fun _ => rfl).symm
    · rfl
  · split
    · rename_i hc
      exact setCell_only (hside _ (List.mem_of_getElem? hc)) value
    · rfl

theorem setSlots_only {ref : ValueLinkRef} (hs : side ref.node = true) (value : Property) :
    ∀ slots : Nat, setSlots ref value slots (script.only side) =
      (setSlots ref value slots script).map id (only side)
  | 0 => rfl
  | slots + 1 => by
    have hbefore := h.of_skeleton (setSlots_skeleton ref value slots script)
    rw [setSlots, setSlots_only hs value slots, Prod.map_snd, setLinkValue_only hbefore hs]
    rfl

theorem setProperty_only {owner : NodeId} (hs : side owner = true) (name : String)
    (value : Property) : (script.only side).setProperty owner name value =
      (script.setProperty owner name value).map id (only side) := by
  unfold setProperty
  rw [node?_only_of hs]
  split
  · rfl
  · split
    · rw [slotCount_only h hs]
      exact setSlots_only h hs value _
    · exact Prod.ext rfl (only_modifyNode side script owner
        (f := fun n => (n.setLocalProperty name value).2)
        fun n => (congrArg Node.id (n.setLocalProperty_skeleton name value) :)).symm

end reading

/-! ## Looking events up -/

theorem walk_of_graphs {γ : Type} {script : Script β} {script' : Script γ}
    (h : script'.graphs = script.graphs) :
    ∀ (fuel : Nat) (stack : List GraphId), script'.walk fuel stack = script.walk fuel stack
  | 0, _ => by rw [walk, walk]
  | _ + 1, [] => by rw [walk, walk]
  | fuel + 1, id :: stack => by
    rw [walk, walk, graph?, h, graph?]
    split
    · rw [walk_of_graphs h fuel]
    · exact walk_of_graphs h fuel stack

theorem subtree_of_graphs {γ : Type} {script : Script β} {script' : Script γ}
    (h : script'.graphs = script.graphs) (id : GraphId) :
    script'.subtree id = script.subtree id := by
  rw [subtree, h, subtree, walk_of_graphs h]

theorem nodesOfType_only (side : NodeId → Bool) (script : Script β) (type : TypeId) :
    (script.only side).nodesOfType type =
      (script.nodesOfType type).filter fun node => side node.id := by
  have hids : ∀ ids : List NodeId, ids.filterMap (script.only side).node? =
      (ids.filterMap script.node?).filter fun node => side node.id := by
    intro ids
    induction ids with
    | nil => rfl
    | cons id ids ih =>
      rw [List.filterMap_cons, List.filterMap_cons, node?_only, ih]
      rcases hn : script.node? id with _ | node
      · rw [ite_self]
      · by_cases hs : side id = true <;> simp [hs, id_of_node? hn]
  exact hids _

/-- Of the events of a name, those of one side are found when the other side is left out. -/
theorem eventsNamed_only {side : NodeId → Bool} {script : Script β} (h : script.Parted side)
    (name : String) (scope : Scope) (origin : GraphId) :
    (script.only side).eventsNamed name scope origin =
      (script.eventsNamed name scope origin).filter side := by
  unfold eventsNamed find
  simp only [nodesOfType_only, List.filter_map, List.filter_filter]
  refine congrArg _ (List.filter_congr fun node _ => ?_)
  by_cases hs : side node.id = true
  · have hsubtree : (script.only side).subtree = script.subtree :=
      funext (subtree_of_graphs (show (script.only side).graphs = script.graphs from rfl))
    simp only [property?_only h hs, hsubtree, Function.comp, hs, Bool.and_true, Bool.true_and]
  · simp only [Function.comp, hs, Bool.and_false, Bool.false_and]

end Script

/-! ## Calls -/

namespace Bridge

variable {side : NodeId → Bool} {message : Message}

/-- The bridge with the messages of one side only. -/
def only (side : NodeId → Bool) : Bridge → Bridge
  | silent => silent
  | recording log => recording ⟨log.messages.filter fun message => side message.node⟩

theorem only_send (hs : side message.node = true) (bridge : Bridge) :
    (bridge.send message).only side = (bridge.only side).send message := by
  cases bridge with
  | silent => rfl
  | recording log => simp [send, only, MessageLog.send, hs]

theorem only_send_of_not (hs : side message.node = false) (bridge : Bridge) :
    (bridge.send message).only side = bridge.only side := by
  cases bridge with
  | silent => rfl
  | recording log => simp [send, only, MessageLog.send, hs]

end Bridge

namespace Turn

/-- The turn with the nodes and messages of one side only. -/
def only (side : NodeId → Bool) (turn : Turn β) : Turn β :=
  { turn with
    script := turn.script.only side
    bridge := turn.bridge.only side
    notes := [] }

variable {side : NodeId → Bool} {turn : Turn Standard}

theorem node?_only (hs : side turn.activation.node = true) :
    (turn.only side).node? = turn.node? :=
  Script.node?_only_of hs

theorem pulse_only (hs : side turn.activation.node = true) (output : Nat) :
    (turn.only side).pulse output = (turn.pulse output).map id (only side) := by
  unfold pulse
  rw [node?_only hs]
  split
  · rfl
  · have hscript := Script.only_modifyNode side turn.script turn.activation.node
      (f := fun n => (n.activateOutput output).2)
      fun n => (congrArg Node.id (n.activateOutput_skeleton output) :)
    simp only [Prod.map, only, hscript, id]

/-- A request of a call of one side is answered alike with the other side left out, if its message
is of this side and the events that it finds are. -/
theorem answer_only (h : turn.script.Parted side) (hs : side turn.activation.node = true)
    {behavior : Standard} {r : Request} (hr : behavior.MayAsk r)
    (hsend : ∀ message, r = .send message → side message.node = true)
    (hfound : ∀ id ∈ turn.foundBy r, side id = true) :
    (turn.only side).answer r = (turn.answer r).map id (only side) := by
  have hnode := node?_only hs
  cases r with
  | script => exact hr.elim
  | note entry => exact hr.elim
  | setSlot link index value => exact hr.elim
  | pushNode node input => exact hr.elim
  | pulse output => exact pulse_only hs output
  | property name =>
    exact Prod.ext (Script.property?_only h hs name) rfl
  | setProperty name value =>
    have hset := Script.setProperty_only h hs name value
    simp only [answer, edit, only] at hset ⊢
    rw [hset]
    rfl
  | slotCount link =>
    refine Prod.ext ?_ rfl
    simp only [answer, link?, hnode]
    rcases turn.node?.bind (·.linkIndex? link) with _ | index
    · rfl
    · have howner : side (ValueLinkRef.mk turn.activation.node index).node = true := hs
      exact Script.slotCount_only h howner
  | slot link index =>
    refine Prod.ext ?_ rfl
    simp only [answer, link?, hnode]
    rcases turn.node?.bind (·.linkIndex? link) with _ | own
    · rfl
    · exact Script.linkValue?_only h hs index
  | pushTargets output =>
    simp only [answer, pushTargets, hnode]
    split <;> rfl
  | signal event scope =>
    have hsignal : (turn.only side).script.eventsNamed event (scope.getD turn.scope) turn.graph
        = turn.script.eventsNamed event (scope.getD turn.scope) turn.graph :=
      (Script.eventsNamed_only h _ _ _).trans (List.filter_eq_self.2 hfound)
    simp only [answer, signal, only] at hsignal ⊢
    rw [hsignal]
    rfl
  | send message =>
    refine Prod.ext rfl ?_
    simp only [answer, only, Prod.map, Bridge.only_send (hsend message rfl)]
  | inputName | inputCount | outputCount | outputIndex name | activeCount name =>
    simp only [answer, hnode]
    rfl
  | _ => rfl

end Turn

end FlowScript
