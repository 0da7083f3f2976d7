import FlowScript.Proofs.Lasting

/-!
# Skeletons

The skeleton of a script is what is left of it without values, pulses and behaviors: its graphs, its
nodes, their links and what these are connected to. Writing a value never changes it
(`setProperty_skeleton`), and so no behavior can change it either (`skeleton_lasting`).
-/

namespace FlowScript

variable {β : Type}

/-- Changing an element in what a function does not see is not seen in the list of its values. -/
theorem map_modify {α γ : Type} (g : α → γ) {f : α → α} (h : ∀ a, g (f a) = g a) :
    ∀ (l : List α) (i : Nat), (l.modify i f).map g = l.map g
  | [], _ => by rw [List.modify_nil]
  | a :: l, 0 => by rw [List.modify_zero_cons, List.map_cons, List.map_cons, h]
  | a :: l, i + 1 => by
    rw [List.modify_succ_cons, List.map_cons, List.map_cons, map_modify g h l i]

/-- Changing some elements in what a function does not see is not seen in the list of its
values. -/
theorem map_where {α γ : Type} {g : α → γ} {f : α → α} (h : ∀ a, g (f a) = g a) (p : α → Prop)
    [DecidablePred p] (l : List α) : (l.map fun a => if p a then f a else a).map g = l.map g := by
  rw [List.map_map]
  refine List.map_congr_left fun a _ => ?_
  rw [Function.comp]
  split
  · exact h a
  · rfl

/-- The link without its value. -/
def ValueLink.skeleton (link : ValueLink) : ValueLink := { link with default := .bool false }

theorem ValueLink.setDefault?_skeleton : ∀ (links : List ValueLink) (name : String)
    (value : Property) {links' : List ValueLink}, setDefault? links name value = some links' →
      links'.map skeleton = links.map skeleton
  | [], _, _, _, h => by simp [setDefault?] at h
  | link :: rest, name, value, links', h => by
    rw [setDefault?] at h
    split at h
    · obtain rfl := Option.some.inj h
      rfl
    · obtain ⟨rest', hrest, rfl⟩ := Option.map_eq_some_iff.1 h
      rw [List.map_cons, List.map_cons, setDefault?_skeleton rest name value hrest]

namespace Node

/-- The node without values, pulses and behavior. -/
def skeleton (node : Node β) : Node Unit where
  id := node.id
  graph := node.graph
  type := node.type
  kind := node.kind
  valueType := node.valueType
  inputs := node.inputs
  outputs := node.outputs.map .skeleton
  links := node.links.map .skeleton
  behavior := none

theorem Booked.skeleton {node node' : Node β} (h : node.Booked node') :
    node'.skeleton = node.skeleton := by
  obtain ⟨behavior, outputs, rfl, h⟩ := h
  simp only [Node.skeleton, h]

theorem setValue_skeleton (node : Node β) (value : Property) :
    (node.setValue value).2.skeleton = node.skeleton := by
  unfold setValue
  split <;> rfl

theorem setLocalProperty_skeleton (node : Node β) (name : String) (value : Property) :
    (node.setLocalProperty name value).2.skeleton = node.skeleton := by
  unfold setLocalProperty
  split
  · exact node.setValue_skeleton value
  split
  · rename_i links h
    simp only [skeleton, ValueLink.setDefault?_skeleton _ _ _ h]
  · rfl

theorem setValue_id (node : Node β) (value : Property) : (node.setValue value).2.id = node.id :=
  (congrArg Node.id (node.setValue_skeleton value) :)

theorem setLocalProperty_id (node : Node β) (name : String) (value : Property) :
    (node.setLocalProperty name value).2.id = node.id :=
  (congrArg Node.id (node.setLocalProperty_skeleton name value) :)

theorem activateOutput_skeleton (node : Node β) (index : Nat) :
    (node.activateOutput index).2.skeleton = node.skeleton := by
  unfold activateOutput
  split
  · have hout := map_modify OutputLink.skeleton (f := .activate) (fun _ => rfl) node.outputs index
    simp only [skeleton, modifyOutput, hout]
  · rfl

theorem modifyLink_default_skeleton (node : Node β) (index : Nat) (value : Property) :
    (node.modifyLink index ({ · with default := value })).skeleton = node.skeleton := by
  have hlinks := map_modify ValueLink.skeleton (f := ({ · with default := value }))
    (fun _ => rfl) node.links index
  simp only [skeleton, modifyLink, hlinks]

/-- How a write changes the node that it goes to. -/
inductive Write : (Node β → Node β) → Prop where
  | cell (value : Property) : Write fun node => (node.setValue value).2
  | plain (name : String) (value : Property) :
    Write fun node => (node.setLocalProperty name value).2
  /-- The default of a value link is replaced. -/
  | default (index : Nat) (value : Property) :
      Write fun node => node.modifyLink index ({ · with default := value })

theorem Write.skeleton {f : Node β → Node β} (h : Write f) (node : Node β) :
    (f node).skeleton = node.skeleton := by
  cases h with
  | cell value => exact node.setValue_skeleton value
  | plain name value => exact node.setLocalProperty_skeleton name value
  | default index value => exact node.modifyLink_default_skeleton index value

theorem Write.id {f : Node β → Node β} (h : Write f) (node : Node β) : (f node).id = node.id :=
  (congrArg Node.id (h.skeleton node) :)

end Node

namespace Script

/-- The script without values, pulses and behaviors. -/
def skeleton (script : Script β) : Script Unit :=
  { script with nodes := script.nodes.map .skeleton }

theorem node?_skeleton (script : Script β) (id : NodeId) :
    script.skeleton.node? id = (script.node? id).map .skeleton :=
  node?_map (f := Node.skeleton) script (fun _ => rfl) id

theorem input?_skeleton (script : Script β) (ref : InputRef) :
    script.skeleton.input? ref = script.input? ref := by
  unfold input?
  rw [node?_skeleton]
  rcases script.node? ref.node with _ | node <;> rfl

theorem output?_skeleton (script : Script β) (ref : OutputRef) :
    script.skeleton.output? ref = (script.output? ref).map .skeleton := by
  unfold output?
  rw [node?_skeleton]
  rcases script.node? ref.node with _ | node
  · rfl
  · exact List.getElem?_map

theorem modifyNode_skeleton (script : Script β) (id : NodeId) {f : Node β → Node β}
    (hf : ∀ node, (f node).skeleton = node.skeleton) :
    (script.modifyNode id f).skeleton = script.skeleton := by
  simp only [skeleton, modifyNode, map_where hf]

/-! ## Writing values -/

/-- A relation of scripts that holds across every write to a node. -/
structure AcrossWrites (R : Script β → Script β → Prop) : Prop where
  refl (script : Script β) : R script script
  trans {first second third : Script β} : R first second → R second third → R first third
  write (script : Script β) (id : NodeId) {f : Node β → Node β} :
    Node.Write f → R script (script.modifyNode id f)

namespace AcrossWrites

variable {R : Script β → Script β → Prop} (h : AcrossWrites R)

include h

theorem setCell (script : Script β) (cell : NodeId) (value : Property) :
    R script (script.setCell cell value).2 := by
  unfold Script.setCell
  split
  · exact h.refl script
  · exact h.write script cell (.cell value)

theorem setLinkValue (script : Script β) (ref : ValueLinkRef) (slot : Nat) (value : Property) :
    R script (script.setLinkValue ref slot value).2 := by
  unfold Script.setLinkValue
  split
  · split
    · exact h.write script ref.node (.default ref.index value)
    · exact h.refl script
  · split
    · exact h.setCell script _ value
    · exact h.refl script

theorem setSlots (ref : ValueLinkRef) (value : Property) : ∀ (slots : Nat) (script : Script β),
    R script (Script.setSlots ref value slots script).2
  | 0, script => h.refl script
  | slots + 1, script => by
    rw [Script.setSlots]
    exact h.trans (setSlots ref value slots script) (h.setLinkValue _ ref slots value)

theorem setProperty (script : Script β) (id : NodeId) (name : String) (value : Property) :
    R script (script.setProperty id name value).2 := by
  unfold Script.setProperty
  split
  · exact h.refl script
  split
  · exact h.setSlots _ value _ script
  · exact h.write script id (.plain name value)

end AcrossWrites

theorem skeleton_writes :
    AcrossWrites fun before after : Script β => after.skeleton = before.skeleton where
  refl _ := rfl
  trans h h' := h'.trans h
  write script id _ hf := script.modifyNode_skeleton id hf.skeleton

theorem setCell_skeleton (script : Script β) (cell : NodeId) (value : Property) :
    (script.setCell cell value).2.skeleton = script.skeleton :=
  skeleton_writes.setCell script cell value

theorem setLinkValue_skeleton (script : Script β) (ref : ValueLinkRef) (slot : Nat)
    (value : Property) : (script.setLinkValue ref slot value).2.skeleton = script.skeleton :=
  skeleton_writes.setLinkValue script ref slot value

theorem setSlots_skeleton (ref : ValueLinkRef) (value : Property) (slots : Nat)
    (script : Script β) : (setSlots ref value slots script).2.skeleton = script.skeleton :=
  skeleton_writes.setSlots ref value slots script

theorem setProperty_skeleton (script : Script β) (node : NodeId) (name : String)
    (value : Property) : (script.setProperty node name value).2.skeleton = script.skeleton :=
  skeleton_writes.setProperty script node name value

end Script

/-! ## Calls -/

theorem Turn.pulse_skeleton (turn : Turn β) (output : Nat) :
    (turn.pulse output).2.script.skeleton = turn.script.skeleton := by
  unfold pulse
  split
  · rfl
  · exact turn.script.modifyNode_skeleton _ fun n => n.activateOutput_skeleton output

theorem Turn.answer_skeleton (turn : Turn β) (r : Request) :
    (turn.answer r).2.script.skeleton = turn.script.skeleton := by
  cases r with
  | pulse output => exact turn.pulse_skeleton output
  | setProperty name value => exact turn.script.setProperty_skeleton _ name value
  | setSlot link index value =>
    simp only [answer, edit]
    rcases turn.link? link with _ | ref
    · rfl
    · exact turn.script.setLinkValue_skeleton ref index value
  | pushTargets output =>
    simp only [answer, pushTargets]
    split <;> rfl
  | _ => rfl

/-- No tick changes the skeleton of its script. -/
theorem Script.skeleton_lasting :
    Lasting fun before after : Script β => after.skeleton = before.skeleton where
  refl _ := rfl
  trans h h' := h'.trans h
  answer turn r := turn.answer_skeleton r
  book script id _ hf := script.modifyNode_skeleton id fun node => (hf node).skeleton

end FlowScript
