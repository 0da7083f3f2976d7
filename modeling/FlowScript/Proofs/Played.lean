import FlowScript.Proofs.Arena
import FlowScript.Proofs.Asks
import FlowScript.Proofs.Recreation
import FlowScript.Proofs.Session

/-!
# What play leaves alone

A session without edits changes of a script of standard nodes only the defaults of links that are
bound to nothing, the values of cells, pulses and the private state of behaviors. All else is as it
was authored (`Session.played`).
-/

namespace FlowScript

variable {β : Type}

/-- The link without its default, unless it is bound. -/
def ValueLink.authored (link : ValueLink) : ValueLink :=
  if link.bound = [] then link.skeleton else link

namespace Node

/-- The node without what its calls and writes may change. -/
def authored (node : Node β) : Node β :=
  { node with
    outputs := node.outputs.map .skeleton
    links := node.links.map .authored
    properties := uncelled node.properties }

/-- The node without its behavior. -/
def dormant (node : Node β) : Node β := { node with behavior := none }

theorem skeleton_authored (node : Node β) : node.authored.skeleton = node.skeleton := by
  have hlinks : (node.links.map .authored).map ValueLink.skeleton = node.links.map .skeleton := by
    rw [List.map_map]
    refine List.map_congr_left fun link _ => ?_
    simp only [Function.comp, ValueLink.authored]
    split <;> rfl
  have houtputs : (node.outputs.map .skeleton).map OutputLink.skeleton =
      node.outputs.map .skeleton := by
    rw [List.map_map]
    rfl
  simp only [skeleton, authored, hlinks, houtputs]

theorem skeleton_of_authored {node node' : Node β} (h : node'.authored = node.authored) :
    node'.skeleton = node.skeleton := by
  rw [← skeleton_authored, h, skeleton_authored]

theorem shape_of_authored {node node' : Node β} (h : node'.authored = node.authored) :
    node'.shape = node.shape := by
  rw [← shape_skeleton, skeleton_of_authored h, shape_skeleton]

theorem Stocked.of_authored {node node' : Node β} (h : node'.authored = node.authored)
    (hs : node.Stocked) : node'.Stocked := by
  simp only [authored, Node.mk.injEq] at h
  obtain ⟨-, -, -, -, hvalueType, -, -, -, hproperties, -⟩ := h
  intro type htype
  obtain ⟨value, hvalue, hhas⟩ := hs type (hvalueType ▸ htype)
  have hget := congrArg (Keyed.get? · cellName) hproperties
  simp only [get?_uncelled_cell, hvalue, Option.map_some] at hget
  obtain ⟨value', hvalue', hzero⟩ := Option.map_eq_some_iff.1 hget
  refine ⟨value', hvalue', ?_⟩
  rw [← value'.type.type_zero, hzero, PropertyType.type_zero, hhas]

theorem setValue_authored {node : Node β} (hs : node.Stocked) (value : Property) :
    (node.setValue value).2.authored = node.authored := by
  unfold setValue
  split
  · rename_i stored hstored
    obtain ⟨type, htype, hcoerce⟩ := Option.bind_eq_some_iff.1 hstored
    obtain ⟨old, hold, hsame⟩ := hs type htype
    have huncelled := Keyed.map_insert_of_get?
      (f := fun e : String × Property => if e.1 = cellName then (e.1, e.2.type.zero) else e)
      stored (by simp only [if_true, hsame, Property.type_of_coerce hcoerce]) hold
    simp only [authored, uncelled, huncelled]
  · rfl

theorem activateOutput_authored (node : Node β) (index : Nat) :
    (node.activateOutput index).2.authored = node.authored := by
  unfold activateOutput
  split
  · have hout := map_modify OutputLink.skeleton (f := .activate) (fun _ => rfl) node.outputs index
    simp only [authored, modifyOutput, hout]
  · rfl

/-- The default of an unbound link is not seen. -/
theorem modifyLink_default_authored (node : Node β) {index : Nat} (value : Property)
    (hb : ∀ link, node.links[index]? = some link → link.bound = []) :
    (node.modifyLink index ({ · with default := value })).authored = node.authored := by
  have hlinks : (node.links.modify index ({ · with default := value })).map ValueLink.authored =
      node.links.map .authored := by
    refine map_modify_at fun link hl => ?_
    rw [ValueLink.authored, ValueLink.authored, if_pos (hb link hl), if_pos (hb link hl)]
    rfl
  simp only [authored, modifyLink, hlinks]

end Node

namespace Script

/-- The script without what calls and writes may change. -/
def authored (script : Script β) : Script β :=
  { script with nodes := script.nodes.map .authored }

/-- The script without its behaviors. -/
def dormant (script : Script β) : Script β :=
  { script with nodes := script.nodes.map .dormant }

variable {script script' : Script β}

theorem node?_of_authored (h : script'.authored = script.authored) {id : NodeId} {node' : Node β}
    (hn : script'.node? id = some node') :
    ∃ node, script.node? id = some node ∧ node'.authored = node.authored :=
  node?_of_alike (f := Node.authored) (fun _ => rfl) (congrArg Script.nodes h) hn

theorem skeleton_of_authored (h : script'.authored = script.authored) :
    script'.skeleton = script.skeleton := by
  have hskeleton : ∀ s : Script β, s.authored.skeleton = s.skeleton := by
    intro s
    simp only [skeleton, authored, List.map_map, Function.comp_def, Node.skeleton_authored]
  rw [← hskeleton, h, hskeleton]

theorem Stocked.of_authored (h : script'.authored = script.authored) (hs : script.Stocked) :
    script'.Stocked := by
  intro id node' hn'
  obtain ⟨node, hn, hsame⟩ := node?_of_authored h hn'
  exact (hs id node hn).of_authored hsame

theorem authored_modifyNode (ha : script.Arena) {id : NodeId} {f : Node β → Node β}
    (hf : ∀ node, script.node? id = some node → (f node).authored = node.authored) :
    (script.modifyNode id f).authored = script.authored := by
  have hnodes : (script.modifyNode id f).nodes.map Node.authored =
      script.nodes.map Node.authored := by
    rw [modifyNode, List.map_map]
    refine List.map_congr_left fun node hm => ?_
    simp only [Function.comp]
    split
    · rename_i hid
      have hfind : script.node? node.id = some node := find?_of_mem ha.nodup_nodes hm
      exact hf node (hid ▸ hfind)
    · rfl
  simp only [authored, hnodes]
  rfl

/-! ## Writing values -/

theorem authored_setCell (ha : script.Arena) (hs : script.Stocked) (cell : NodeId)
    (value : Property) : (script.setCell cell value).2.authored = script.authored := by
  unfold setCell
  split
  · rfl
  · exact authored_modifyNode ha fun node hn => Node.setValue_authored (hs cell node hn) value

theorem authored_setLinkValue (ha : script.Arena) (hg : script.Grounded) (hs : script.Stocked)
    (ref : ValueLinkRef) (slot : Nat) (value : Property) :
    (script.setLinkValue ref slot value).2.authored = script.authored := by
  have hbindings := hg.liveBindings_eq ref
  unfold setLinkValue
  split
  · rename_i hlive
    split
    · refine authored_modifyNode ha fun node hn => ?_
      refine node.modifyLink_default_authored value fun link hl => ?_
      have hlink : script.link? ref = some link := by
        rw [link?, hn, Option.bind_some, hl]
      rw [← bound_of_link? hlink, ← hbindings, hlive]
    · rfl
  · split
    · exact authored_setCell ha hs _ value
    · rfl

theorem authored_setSlots (ref : ValueLinkRef) (value : Property) : ∀ (slots : Nat)
    {script : Script β}, script.Arena → script.Grounded → script.Stocked →
      (setSlots ref value slots script).2.authored = script.authored
  | 0, _, _, _, _ => rfl
  | slots + 1, script, ha, hg, hs => by
    have hbefore := authored_setSlots ref value slots ha hg hs
    have hskeleton := skeleton_of_authored hbefore
    rw [setSlots]
    exact (authored_setLinkValue (ha.of_skeleton hskeleton) (hg.of_skeleton hskeleton)
      (hs.of_authored hbefore) ref slots value).trans hbefore

/-- Writing through a named link leaves what is authored. -/
theorem authored_setProperty (ha : script.Arena) (hg : script.Grounded) (hs : script.Stocked)
    {id : NodeId} {name : String}
    (hn : ∀ node, script.node? id = some node → name ∈ node.links.map (·.name))
    (value : Property) : (script.setProperty id name value).2.authored = script.authored := by
  unfold setProperty
  split
  · rfl
  rename_i node hnode
  split
  · exact authored_setSlots _ value _ ha hg hs
  · rename_i hindex
    obtain ⟨link, hl, rfl⟩ := List.mem_map.1 (hn node hnode)
    have hmiss := position?_eq_none.1 hindex link hl
    simp at hmiss

end Script

/-! ## Calls -/

/-- A request that stays within the links of its node leaves what is authored. -/
theorem Turn.authored_answer {turn : Turn β} (ha : turn.script.Arena) (hg : turn.script.Grounded)
    (hs : turn.script.Stocked) {names : List String}
    (hn : ∀ node, turn.node? = some node → ∀ name ∈ names, name ∈ node.links.map (·.name))
    {r : Request} (hr : r.Within names) :
    (turn.answer r).2.script.authored = turn.script.authored := by
  cases r with
  | pulse output =>
    simp only [answer, Turn.pulse]
    split
    · rfl
    · exact Script.authored_modifyNode ha fun n _ => n.activateOutput_authored output
  | setProperty name value =>
    exact Script.authored_setProperty ha hg hs (fun node hnode => hn node hnode name hr) value
  | setSlot link index value =>
    simp only [answer, Turn.edit]
    rcases turn.link? link with _ | ref
    · rfl
    · exact Script.authored_setLinkValue ha hg hs ref index value
  | pushTargets output =>
    simp only [answer, pushTargets]
    split <;> rfl
  | _ => rfl

theorem Program.Asks.authored_run {α : Type} {p : Program α} {names : List String}
    (hp : p.Asks (Request.Within names)) {turn : Turn β} (ha : turn.script.Arena)
    (hg : turn.script.Grounded) (hs : turn.script.Stocked)
    (hn : ∀ node, turn.node? = some node → ∀ name ∈ names, name ∈ node.links.map (·.name)) :
    (p.run turn).2.script.authored = turn.script.authored := by
  refine (hp.keeps (fun t => t.activation = turn.activation
    ∧ t.script.authored = turn.script.authored) ?_ ⟨rfl, rfl⟩).2
  rintro t r hr ⟨hactivation, hauthored⟩
  have hskeleton := Script.skeleton_of_authored hauthored
  refine ⟨(t.answer_activation r).trans hactivation, ?_⟩
  refine (Turn.authored_answer (ha.of_skeleton hskeleton) (hg.of_skeleton hskeleton)
    (hs.of_authored hauthored) (fun node' hn' => ?_) hr).trans hauthored
  rw [Turn.node?, hactivation] at hn'
  obtain ⟨node, hnode, hsame⟩ := Script.node?_of_authored hauthored hn'
  rw [ValueLink.names_of_shape (congrArg NodeBuilder.links (Node.shape_of_authored hsame))]
  exact hn node hnode

/-- A node of the catalog, as far as its shape and its behavior tell. -/
def Node.Genuine (node : Node Standard) : Prop :=
  ∃ entry ∈ Standard.catalog, ∃ properties, node.shape = (entry.2 properties).shape
    ∧ ∀ behavior, node.behavior = some behavior →
      behavior.blank = (entry.2 properties).behavior

namespace Script

theorem skeleton_dormant (script : Script β) : script.dormant.skeleton = script.skeleton := by
  simp only [skeleton, dormant, List.map_map]
  rfl

theorem node?_dormant (script : Script β) (id : NodeId) :
    script.dormant.node? id = (script.node? id).map .dormant :=
  node?_map (f := Node.dormant) script (fun _ => rfl) id

theorem stocked_dormant (script : Script β) : script.dormant.Stocked ↔ script.Stocked := by
  refine ⟨fun h id node hn => ?_, fun h id node hn => ?_⟩
  · exact h id node.dormant (by rw [node?_dormant, hn, Option.map_some])
  · rw [node?_dormant] at hn
    obtain ⟨awake, ha, rfl⟩ := Option.map_eq_some_iff.1 hn
    exact h id awake ha

/-- What play makes of a script of standard nodes. -/
structure Played (before script : Script Standard) : Prop where
  authored : script.dormant.authored = before.dormant.authored
  genuine : ∀ id node, script.node? id = some node → node.Genuine

namespace Played

variable {before script script' : Script Standard}

theorem skeleton (h : before.Played script) : script.skeleton = before.skeleton := by
  rw [← skeleton_dormant, skeleton_of_authored h.authored, skeleton_dormant]

theorem stocked (h : before.Played script) (hs : before.Stocked) : script.Stocked :=
  script.stocked_dormant.1 ((before.stocked_dormant.2 hs).of_authored h.authored)

theorem of_authored (h : before.Played script) (ha : script'.authored = script.authored) :
    before.Played script' := by
  have hcomm : ∀ s : Script Standard, s.dormant.authored = s.authored.dormant := by
    intro s
    simp only [Script.authored, dormant, List.map_map]
    rfl
  refine ⟨?_, fun id node' hn' => ?_⟩
  · rw [hcomm, ha, ← hcomm, h.authored]
  · obtain ⟨node, hn, hsame⟩ := node?_of_authored ha hn'
    obtain ⟨entry, he, properties, hshape, hbehavior⟩ := h.genuine id node hn
    have hsameBehavior : node'.authored.behavior = node.authored.behavior := by rw [hsame]
    exact ⟨entry, he, properties, (Node.shape_of_authored hsame).trans hshape,
      fun b hb => hbehavior b (hsameBehavior.symm.trans hb)⟩

theorem book (h : before.Played script) {id : NodeId} {f : Node Standard → Node Standard}
    (hk : ∀ node : Node Standard, node.Booked (f node))
    (hf : ∀ node, script.node? id = some node → (f node).Genuine) :
    before.Played (script.modifyNode id f) := by
  refine ⟨h.authored ▸ ?_, forall_modifyNode (fun node => (hk node).id) h.genuine hf⟩
  have hnodes : (script.modifyNode id f).nodes.map (·.dormant.authored) =
      script.nodes.map (·.dormant.authored) := by
    refine script.map_nodes_modifyNode id _ fun node => ?_
    obtain ⟨behavior, outputs, heq, houtputs⟩ := hk node
    simp only [heq, Node.dormant, Node.authored, houtputs]
  simp only [Script.authored, dormant, List.map_map]
  exact congrArg ({ script with nodes := · }) hnodes

end Played

end Script

theorem Node.Genuine.booked {node node' : Node Standard} {entry : TypeId × Factory Standard}
    (he : entry ∈ Standard.catalog) {properties : PropertySet}
    (hs : node.shape = (entry.2 properties).shape) (hk : node.Booked node')
    (hb : ∀ behavior, node'.behavior = some behavior →
      behavior.blank = (entry.2 properties).behavior) : node'.Genuine := by
  refine ⟨entry, he, properties, ?_, hb⟩
  rw [← node'.shape_skeleton, hk.skeleton, node.shape_skeleton, hs]

namespace Script.Played

variable {before : Script Standard} (ha : before.Arena) (hg : before.Grounded)
  (hs : before.Stocked)

include ha hg hs

/-- A call leaves what is authored, and its node is of the description that it was of. -/
theorem answered {m : Moment Standard} (h : before.Played m.director.script)
    {node : Node Standard} {behavior : Standard} (ht : m.target? = some node)
    (hb : node.behavior = some behavior) :
    before.Played (m.answered node behavior).2.script
      ∧ ∃ entry ∈ Standard.catalog, ∃ properties,
        (m.answered node behavior).1.2.blank = (entry.2 properties).behavior
          ∧ ∀ n, (m.answered node behavior).2.script.node? m.activation.node = some n →
            n.shape = (entry.2 properties).shape := by
  obtain ⟨hn, -⟩ := Moment.target?_eq_some.1 ht
  obtain ⟨entry, he, properties, hshape, hbehavior⟩ := h.genuine _ _ hn
  -- The call starts with the behavior taken out.
  have hstart : before.Played (m.director.turn m.activation node.graph).script := by
    refine h.book Node.booked_none fun n hn' => ?_
    obtain rfl := Option.some.inj (hn.symm.trans hn')
    exact Node.Genuine.booked he hshape node.booked_none nofun
  have hout : ∀ n, (m.director.turn m.activation node.graph).node? = some n →
      n.shape = (entry.2 properties).shape := by
    intro n hn'
    rw [← Option.some.inj ((Director.node?_turn hn node.graph).symm.trans hn')]
    exact hshape
  have hauthored := (Standard.react_asks he properties (hbehavior behavior hb) m.activation.input
    m.activation.first).authored_run (ha.of_skeleton hstart.skeleton)
      (hg.of_skeleton hstart.skeleton) (hstart.stocked hs) fun n hn' name hname => by
        rw [ValueLink.names_of_shape (congrArg NodeBuilder.links (hout n hn') :)]
        exact hname
  refine ⟨hstart.of_authored hauthored, entry, he, properties, ?_, fun n hn' => ?_⟩
  · exact (Standard.react_blank _ _ _ _).trans (hbehavior behavior hb)
  · obtain ⟨n', hn'', hsame⟩ := node?_of_authored hauthored hn'
    exact (Node.shape_of_authored hsame).trans (hout n' hn'')

theorem outcome (m : Moment Standard) (h : before.Played m.director.script) :
    before.Played m.outcome.2.script := by
  generalize m.outcome.2.script = left, m.leaves = hleft
  cases hleft with
  | untouched => exact h
  | unwound target owned => exact (h.answered ha hg hs target owned).1
  | booked target owned kept back =>
    obtain ⟨hplayed, entry, he, properties, hblank, hshape⟩ := h.answered ha hg hs target owned
    refine hplayed.book kept fun n hn => ?_
    refine Node.Genuine.booked he (hshape n hn) (kept n) fun b hb => ?_
    rw [back] at hb
    rw [← Option.some.inj hb]
    exact hblank

end Script.Played

/-- A move of a host that only fires events and inputs. -/
def Move.Fires : Move β → Prop
  | .edit _ => False
  | _ => True

theorem Director.Session.played {start director : Director Standard}
    (h : start.Session Move.Fires director) (ha : start.script.Arena)
    (hg : start.script.Grounded) (hs : start.script.Stocked)
    (genuine : ∀ id node, start.script.node? id = some node → node.Genuine) :
    start.script.Played director.script :=
  h.keeps (fun _ _ permitted => permitted.elim) (fun m => Script.Played.outcome ha hg hs m)
    ⟨rfl, genuine⟩

end FlowScript
