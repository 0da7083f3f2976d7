import FlowScript.Proofs.Reachable
import FlowScript.Proofs.Skeleton

/-!
# What stays as it was described

A node keeps its shape from the day it is created: its type and kind, and its links but for values
and connections. The members of a script are its nodes by id, graph and shape. An edit adds a member
or takes members out and changes none (`members_edit`), and a tick leaves all as they are.
-/

namespace FlowScript

variable {β γ : Type}

/-- The output without its connections and pulses. -/
def OutputLink.shape (link : OutputLink) : OutputLink := { link with connected := [], active := 0 }

/-- The value link without its value and bindings. -/
def ValueLink.shape (link : ValueLink) : ValueLink :=
  { link with default := .bool false, bound := [] }

theorem ValueLink.of_shape_eq {link link' : ValueLink} (h : link.shape = link'.shape) :
    link.name = link'.name ∧ link.allowsMultiple = link'.allowsMultiple
      ∧ link.isChecked = link'.isChecked := by
  simp only [shape, ValueLink.mk.injEq] at h
  obtain ⟨hname, -, hmultiple, hchecked, -⟩ := h
  exact ⟨hname, hmultiple, hchecked⟩

/-- The description of a node without its values. -/
def NodeBuilder.shape (builder : NodeBuilder β) : NodeBuilder Unit where
  type := builder.type
  kind := builder.kind
  valueType := builder.valueType
  inputs := builder.inputs.map .clear
  outputs := builder.outputs.map .shape
  links := builder.links.map .shape
  behavior := ()

namespace Node

/-- What a node without values would be described as. -/
def shape (node : Node β) : NodeBuilder Unit where
  type := node.type
  kind := node.kind
  valueType := node.valueType
  inputs := node.inputs.map .clear
  outputs := node.outputs.map .shape
  links := node.links.map .shape
  behavior := ()

/-- The node without its control connections. -/
def unwired (node : Node β) : Node β :=
  { node with inputs := node.inputs.map .clear, outputs := node.outputs.map .clear }

end Node

/-- The edit writes a value or a pulse itself. -/
def Edit.Writes : Edit β → Prop
  | .setProperty _ _ _ | .setLinkValue _ _ _ | .setLocalProperty _ _ _ | .setValue _ _
  | .activateOutput _ _ => True
  | _ => False

/-- Building adds nodes, connects and binds, so what is kept by edits that write no value holds of
every script that is built. -/
theorem Loaded.keeps_of_build {P : Script β → Prop} {placed : NodeBuilder β → Prop}
    {registry : Registry β} {definition : GraphDef} {loaded : Loaded β}
    (places : ∀ nested ∈ definition.preorder, ∀ node ∈ nested.nodes, ∀ builder,
      registry.create node.type node.properties = .ok builder → placed builder)
    (fresh : P (.withRootName definition.name))
    (edit : ∀ (script : Script β) (change : Edit β), ¬ change.Writes → change.Places placed →
      P script → P (script.edit change))
    (h : definition.build registry = .ok loaded) : P loaded.script := by
  have builds : Edit.Builds fun change : Edit β => ¬ change.Writes ∧ change.Places placed :=
    ⟨fun _ _ => ⟨id, trivial⟩, fun _ _ => ⟨id, trivial⟩, fun _ _ => ⟨id, trivial⟩⟩
  have edited := Loaded.edited_of_build builds
    (fun nested hg node hn _ builder hc => ⟨id, places nested hg node hn builder hc⟩) h
  have all : ∀ {script : Script β}, (Script.withRootName definition.name).Edited
      (fun change => ¬ change.Writes ∧ change.Places placed) script → P script := by
    intro script he
    induction he with
    | refl => exact fresh
    | edit change permitted edited ih => exact edit _ change permitted.1 permitted.2 ih
  exact all edited

/-- A node of a script, as far as it stays the same. -/
structure Member where
  id : NodeId
  graph : GraphId
  shape : NodeBuilder Unit

/-- What stays the same of a node. -/
def Node.member (node : Node β) : Member := ⟨node.id, node.graph, node.shape⟩

namespace Script

/-- The members of a script, in order of creation. -/
def members (script : Script β) : List Member := script.nodes.map Node.member

/-- The script without its control connections. -/
def unwired (script : Script β) : Script β := { script with nodes := script.nodes.map .unwired }

/-! ## Changing a node in what is not seen -/

theorem map_nodes_modifyNode (script : Script β) (id : NodeId) {f : Node β → Node β}
    (g : Node β → γ) (hf : ∀ n, g (f n) = g n) :
    (script.modifyNode id f).nodes.map g = script.nodes.map g :=
  map_where hf (·.id = id) script.nodes

theorem members_modifyNode (script : Script β) (id : NodeId) {f : Node β → Node β}
    (hf : ∀ n, (f n).member = n.member) : (script.modifyNode id f).members = script.members :=
  script.map_nodes_modifyNode id Node.member hf

theorem unwired_modifyNode (script : Script β) (id : NodeId) {f : Node β → Node β}
    (hf : ∀ n, (f n).unwired = n.unwired) : (script.modifyNode id f).unwired = script.unwired := by
  have hnodes := script.map_nodes_modifyNode id Node.unwired hf
  simp only [unwired, hnodes]
  rfl

theorem members_of_unwired {script script' : Script β} (h : script'.unwired = script.unwired) :
    script'.members = script.members := by
  have hm : ∀ s : Script β, s.unwired.members = s.members := by
    intro s
    simp only [members, unwired, List.map_map]
    refine List.map_congr_left fun n _ => ?_
    simp only [Function.comp, Node.member, Node.shape, Node.unwired, List.map_map]
    rfl
  rw [← hm, h, hm]

theorem members_skeleton (script : Script β) : script.skeleton.members = script.members := by
  simp only [members, skeleton, List.map_map]
  refine List.map_congr_left fun n _ => ?_
  simp only [Function.comp, Node.member, Node.shape, Node.skeleton, List.map_map]
  rfl

theorem members_of_skeleton {script script' : Script β} (h : script'.skeleton = script.skeleton) :
    script'.members = script.members := by
  rw [← members_skeleton, h, members_skeleton]

theorem node?_member {script : Script β} {id : NodeId} {node : Node β}
    (h : script.node? id = some node) : node.member ∈ script.members :=
  List.mem_map_of_mem (List.mem_of_find?_eq_some h)

/-- Where a behavior is found, a list of all nodes with their behaviors has it. -/
theorem behavior_listed {script : Script β} {listed : List (NodeId × Option β)}
    (hl : script.nodes.map (fun node => (node.id, node.behavior)) = listed) {id : NodeId}
    {node : Node β} (hn : script.node? id = some node) {behavior : β}
    (hb : node.behavior = some behavior) : (id, some behavior) ∈ listed := by
  rw [← hl, ← hb, ← id_of_node? hn]
  exact List.mem_map_of_mem (List.mem_of_find?_eq_some hn)

/-! ## Control links -/

theorem unwired_modifyInput (script : Script β) (ref : InputRef) {f : InputLink → InputLink}
    (hf : ∀ link, (f link).clear = link.clear) :
    (script.modifyInput ref f).unwired = script.unwired := by
  refine script.unwired_modifyNode ref.node fun n => ?_
  simp only [Node.unwired, Node.modifyInput, map_modify _ hf]

theorem unwired_modifyOutput (script : Script β) (ref : OutputRef) {f : OutputLink → OutputLink}
    (hf : ∀ link, (f link).clear = link.clear) :
    (script.modifyOutput ref f).unwired = script.unwired := by
  refine script.unwired_modifyNode ref.node fun n => ?_
  simp only [Node.unwired, Node.modifyOutput, map_modify _ hf]

theorem clear_attach_input (link : InputLink) (o : OutputRef) :
    (link.attach o).clear = link.clear := by
  unfold InputLink.attach
  split <;> rfl

theorem clear_attach_output (link : OutputLink) (i : InputRef) :
    (link.attach i).clear = link.clear := by
  unfold OutputLink.attach
  split <;> rfl

theorem unwired_foldl {α : Type} {step : Script β → α → Script β}
    (hs : ∀ script a, (step script a).unwired = script.unwired) :
    ∀ (l : List α) (script : Script β), (l.foldl step script).unwired = script.unwired
  | [], _ => rfl
  | a :: l, script => (unwired_foldl hs l (step script a)).trans (hs script a)

theorem unwired_detachInputs (id : NodeId) : ∀ (links : List InputLink) (index : Nat)
    (script : Script β), (script.detachInputs id index links).unwired = script.unwired
  | [], _, _ => rfl
  | link :: links, index, script => by
    rw [detachInputs, unwired_detachInputs id links]
    exact unwired_foldl
      (fun s o => s.unwired_modifyOutput o (f := (·.detach ⟨id, index⟩)) fun _ => rfl) _ script

theorem unwired_detachOutputs (id : NodeId) : ∀ (links : List OutputLink) (index : Nat)
    (script : Script β), (script.detachOutputs id index links).unwired = script.unwired
  | [], _, _ => rfl
  | link :: links, index, script => by
    rw [detachOutputs, unwired_detachOutputs id links]
    exact unwired_foldl
      (fun s i => s.unwired_modifyInput i (f := (·.detach ⟨id, index⟩)) fun _ => rfl) _ script

theorem unwired_connect (script : Script β) (o : OutputRef) (i : InputRef) :
    (script.connect o i).2.unwired = script.unwired := by
  unfold connect
  split
  · split
    · rfl
    · rw [unwired_modifyInput _ i fun link => clear_attach_input link o]
      exact script.unwired_modifyOutput o fun link => clear_attach_output link i
  · rfl

theorem unwired_disconnect (script : Script β) (o : OutputRef) (i : InputRef) :
    (script.disconnect o i).2.unwired = script.unwired := by
  rw [disconnect]
  have hi := (script.modifyOutput o (·.detach i)).unwired_modifyInput i (f := (·.detach o))
    fun _ => rfl
  exact hi.trans (script.unwired_modifyOutput o fun _ => rfl)

theorem unwired_disconnectOutput (script : Script β) (o : OutputRef) :
    (script.disconnectOutput o).2.unwired = script.unwired := by
  unfold disconnectOutput
  split
  · rfl
  · have hi := unwired_foldl
      (fun (s : Script β) i => s.unwired_modifyInput i (f := (·.detach o)) fun _ => rfl)
    exact (hi _ _).trans (script.unwired_modifyOutput o fun _ => rfl)

theorem unwired_disconnectInput (script : Script β) (i : InputRef) :
    (script.disconnectInput i).2.unwired = script.unwired := by
  unfold disconnectInput
  split
  · rfl
  · have ho := unwired_foldl
      (fun (s : Script β) o => s.unwired_modifyOutput o (f := (·.detach i)) fun _ => rfl)
    exact (ho _ _).trans (script.unwired_modifyInput i fun _ => rfl)

/-! ## Value links -/

theorem members_modifyLink (script : Script β) (ref : ValueLinkRef) {f : ValueLink → ValueLink}
    (hf : ∀ link, (f link).shape = link.shape) :
    (script.modifyLink ref f).members = script.members := by
  refine script.members_modifyNode ref.node fun n => ?_
  simp only [Node.member, Node.shape, Node.modifyLink, map_modify _ hf]

/-- A binding is made if its checks pass, and it comes after the others. -/
theorem connectValue_eq_ok {script next : Script β} {ref : ValueLinkRef} {cell : NodeId} :
    script.connectValue ref cell = .ok next ↔
      (∃ node type link, script.node? cell = some node ∧ node.valueType = some type
        ∧ script.link? ref = some link ∧ cell ∉ link.bound
        ∧ (link.allowsMultiple = true ∨ link.bound.any script.containsNode = false)
        ∧ (link.isChecked = true → link.type = type))
      ∧ next = script.modifyLink ref (·.attach cell) := by
  constructor
  · intro h
    unfold connectValue at h
    split at h
    · cases h
    rename_i node hn
    split at h
    · cases h
    rename_i type ht
    split at h
    · cases h
    rename_i owner ho
    split at h
    · cases h
    rename_i link hl
    have hlink : script.link? ref = some link := by simp [link?, ho, hl]
    split at h
    · cases h
    rename_i hbound
    split at h
    · cases h
    rename_i hfull
    have hroom : link.allowsMultiple = true ∨ link.bound.any script.containsNode = false := by
      cases hm : link.allowsMultiple with
      | true => exact .inl rfl
      | false => exact .inr (by simpa [hm] using hfull)
    split at h
    · cases h
    rename_i htype
    have hfits : link.isChecked = true → link.type = type := by simpa using htype
    exact ⟨⟨node, type, link, hn, ht, hlink, hbound, hroom, hfits⟩, (Except.ok.inj h).symm⟩
  · rintro ⟨⟨node, type, link, hn, ht, hlink, hbound, hroom, hfits⟩, rfl⟩
    obtain ⟨owner, ho, hl⟩ := Option.bind_eq_some_iff.1 hlink
    have hfree : ¬ (!link.allowsMultiple && link.bound.any script.containsNode) = true := by
      rcases hroom with h | h <;> simp [h]
    have htype : ¬ (link.isChecked && decide (link.type ≠ type)) = true := by simpa using hfits
    unfold connectValue
    simp only [hn, ht, ho, hl]
    rw [if_neg hbound, if_neg hfree, if_neg htype]

/-- The script without connections and bindings. -/
def disjoined (script : Script β) : Script β :=
  { script with nodes := script.nodes.map .cleared }

theorem disjoined_of_unwired {script script' : Script β} (h : script'.unwired = script.unwired) :
    script'.disjoined = script.disjoined := by
  have hall : ∀ s : Script β, s.unwired.disjoined = s.disjoined := by
    intro s
    simp only [disjoined, unwired, List.map_map]
    congr 1
    refine List.map_congr_left fun n _ => ?_
    simp only [Function.comp, Node.cleared, Node.unwired, List.map_map]
    rfl
  rw [← hall, h, hall]

theorem disjoined_connectValue {script next : Script β} {ref : ValueLinkRef} {cell : NodeId}
    (done : script.connectValue ref cell = .ok next) : next.disjoined = script.disjoined := by
  obtain ⟨-, rfl⟩ := connectValue_eq_ok.1 done
  have hnodes := script.map_nodes_modifyNode ref.node
    (f := (·.modifyLink ref.index (·.attach cell))) Node.cleared fun n => by
      have hlinks := map_modify ValueLink.clear (f := (·.attach cell)) (fun _ => rfl) n.links
        ref.index
      simp only [Node.cleared, Node.modifyLink, hlinks]
  simp only [disjoined, modifyLink, hnodes]
  rfl

theorem members_of_disjoined {script script' : Script β}
    (h : script'.disjoined = script.disjoined) : script'.members = script.members := by
  have hm : ∀ s : Script β, s.disjoined.members = s.members := by
    intro s
    simp only [members, disjoined, List.map_map]
    refine List.map_congr_left fun n _ => ?_
    simp only [Function.comp, Node.member, Node.shape, Node.cleared, List.map_map]
    rfl
  rw [← hm, h, hm]

theorem members_disconnectValue (script : Script β) (ref : ValueLinkRef) (cell : Option NodeId) :
    (script.disconnectValue ref cell).2.members = script.members := by
  unfold disconnectValue
  split
  · rfl
  split
  · exact script.members_modifyLink ref fun _ => rfl
  · exact script.members_modifyLink ref fun _ => rfl

/-! ## Taking a node out -/

/-- The script with a node that is out of it taken off every list but those of control links. -/
def forget (script : Script β) (node : Node β) : Script β :=
  let unbound := if node.isValueNode then script.unbindEverywhere node.id else script
  let unlisted := unbound.modifyGraph node.graph (·.removeNode node.id)
  { unlisted with byType := Keyed.adjust unlisted.byType node.type (·.filter (· ≠ node.id)) }

/-- The script without a node. The other ends of its control connections still list it. -/
def takeOut (script : Script β) (node : Node β) : Script β :=
  forget { script with nodes := script.nodes.filter (·.id ≠ node.id) } node

theorem unwired_forget (script : Script β) (node : Node β) :
    (script.forget node).unwired = script.unwired.forget node := by
  unfold forget
  split
  · simp only [unwired, modifyGraph, unbindEverywhere, List.map_map]
    rfl
  · rfl

theorem removeNode_unwired {script : Script β} {id : NodeId} {removed : Node β × Script β}
    (h : script.removeNode id = .ok removed) :
    ∃ node, script.node? id = some node ∧ removed.2.unwired = (script.takeOut node).unwired := by
  unfold removeNode at h
  split at h
  · cases h
  rename_i node hnode
  obtain rfl := Except.ok.inj h
  obtain rfl := id_of_node? hnode
  let without : Script β := { script with nodes := script.nodes.filter (·.id ≠ node.id) }
  let freed := (without.detachInputs node.id 0 node.inputs).detachOutputs node.id 0 node.outputs
  have hfreed : freed.unwired = without.unwired :=
    (unwired_detachOutputs _ _ _ _).trans (unwired_detachInputs _ _ _ _)
  refine ⟨node, hnode, ?_⟩
  calc (freed.forget node).unwired
      = freed.unwired.forget node := freed.unwired_forget node
    _ = without.unwired.forget node := by rw [hfreed]
    _ = (script.takeOut node).unwired := (without.unwired_forget node).symm

theorem nodes_takeOut (script : Script β) (node : Node β) :
    (script.takeOut node).nodes = (script.nodes.filter (·.id ≠ node.id)).map fun n =>
      if node.isValueNode then { n with links := n.links.map (·.detach node.id) } else n := by
  unfold takeOut forget
  by_cases hv : node.isValueNode = true
  · simp only [hv, if_true, modifyGraph, unbindEverywhere]
  · simp [hv, modifyGraph]

theorem node?_takeOut (script : Script β) (node : Node β) (id : NodeId) :
    (script.takeOut node).node? id = if id = node.id then none else (script.node? id).map fun n =>
      if node.isValueNode then { n with links := n.links.map (·.detach node.id) } else n := by
  let without : Script β := { script with nodes := script.nodes.filter (·.id ≠ node.id) }
  let off : Node β → Node β := fun n =>
    if node.isValueNode then { n with links := n.links.map (·.detach node.id) } else n
  have hoff : ∀ n, (off n).id = n.id := by
    intro n
    simp only [off]
    split <;> rfl
  have hfind : (script.takeOut node).node? id = (without.node? id).map off := by
    rw [← without.node?_map hoff id]
    unfold node?
    rw [nodes_takeOut]
  rw [hfind, script.node?_without node.id id]
  by_cases h : id = node.id
  · simp [h]
  · simp [h, off]

theorem members_takeOut (script : Script β) (node : Node β) :
    (script.takeOut node).members = script.members.filter (·.id ≠ node.id) := by
  simp only [members, nodes_takeOut, List.map_map, List.filter_map]
  refine List.map_congr_left fun n _ => ?_
  simp only [Function.comp]
  split
  · simp only [Node.member, Node.shape, List.map_map]
    rfl
  · rfl

theorem members_removeNode {script : Script β} {id : NodeId} {removed : Node β × Script β}
    (h : script.removeNode id = .ok removed) :
    removed.2.members = script.members.filter (·.id ≠ id) := by
  obtain ⟨node, hn, hu⟩ := removeNode_unwired h
  rw [members_of_unwired hu, members_takeOut, id_of_node? hn]

/-- The script with one more node, listed wherever nodes are listed. -/
def withNode (script : Script β) (graph : GraphId) (builder : NodeBuilder β) : Script β :=
  let id : NodeId := ⟨script.nextNode⟩
  { script.modifyGraph graph (·.addNode id) with
    nodes := script.nodes ++ [builder.build id graph]
    byType := Keyed.insert script.byType builder.type
      ((Keyed.get? script.byType builder.type).getD [] ++ [id])
    nextNode := script.nextNode + 1 }

theorem addNode_eq_ok {script : Script β} {graph : GraphId} {builder : NodeBuilder β}
    {added : NodeId × Script β} (h : script.addNode graph builder = .ok added) :
    script.containsGraph graph = true
      ∧ added = (⟨script.nextNode⟩, script.withNode graph builder) := by
  unfold addNode at h
  split at h
  · rename_i hgraph
    exact ⟨hgraph, (Except.ok.inj h).symm⟩
  · cases h

theorem node?_withNode (script : Script β) (graph : GraphId) (builder : NodeBuilder β)
    (id : NodeId) : (script.withNode graph builder).node? id = (script.node? id).or
      (if ⟨script.nextNode⟩ = id then some (builder.build ⟨script.nextNode⟩ graph) else none) :=
  script.node?_append (builder.build ⟨script.nextNode⟩ graph) id

/-- What holds of every node and of the one that is added holds of every node then. -/
theorem forall_addNode {P : Node β → Prop} {script : Script β} {graph : GraphId}
    {builder : NodeBuilder β} {added : NodeId × Script β}
    (ha : script.addNode graph builder = .ok added)
    (hs : ∀ id node, script.node? id = some node → P node) (hp : ∀ id, P (builder.build id graph)) :
    ∀ id node, added.2.node? id = some node → P node := by
  obtain ⟨-, rfl⟩ := addNode_eq_ok ha
  intro id node hn
  rw [node?_withNode] at hn
  rcases Option.or_eq_some_iff.1 hn with hn | ⟨-, hn⟩
  · exact hs id node hn
  · split at hn
    · obtain rfl := Option.some.inj hn
      exact hp _
    · cases hn

theorem members_addNode {script : Script β} {graph : GraphId} {builder : NodeBuilder β}
    {added : NodeId × Script β} (h : script.addNode graph builder = .ok added) :
    added.2.members = script.members ++ [⟨⟨script.nextNode⟩, graph, builder.shape⟩] := by
  obtain ⟨-, rfl⟩ := addNode_eq_ok h
  simp only [withNode, members, List.map_append, List.map_cons, List.map_nil]
  rfl

/-! ## Edits and ticks -/

/-- What an edit comes down to. Control links and values are told apart from all else by what they
leave as it was. -/
inductive Becomes (script : Script β) (change : Edit β) : Script β → Prop where
  | refused : Becomes script change script
  | addGraph {parent : GraphId} {name : String} {added : GraphId × Script β}
      (done : script.addGraph parent name = .ok added) : Becomes script change added.2
  | renamed (graph : GraphId) (name : String) :
      Becomes script change (script.setGraphName graph name)
  | removeGraph {graph : GraphId} {rest : Script β} (done : script.removeGraph graph = .ok rest) :
      Becomes script change rest
  | addNode {graph : GraphId} {builder : NodeBuilder β} {added : NodeId × Script β}
      (asked : change = .addNode graph builder) (done : script.addNode graph builder = .ok added) :
      Becomes script change added.2
  | removeNode {node : NodeId} {removed : Node β × Script β}
      (done : script.removeNode node = .ok removed) : Becomes script change removed.2
  | rewired {after : Script β} (same : after.unwired = script.unwired) : Becomes script change after
  | bound {ref : ValueLinkRef} {cell : NodeId} {after : Script β}
      (done : script.connectValue ref cell = .ok after) : Becomes script change after
  | unbound (ref : ValueLinkRef) (cell : Option NodeId) :
      Becomes script change (script.disconnectValue ref cell).2
  | written {after : Script β} (asked : change.Writes) (same : after.skeleton = script.skeleton) :
      Becomes script change after

theorem becomes_unlessRefused {ε : Type} {script : Script β} {change : Edit β}
    {result : Except ε (Script β)} (h : ∀ next, result = .ok next → script.Becomes change next) :
    script.Becomes change (script.unlessRefused result) :=
  unlessRefused_keeps .refused h

theorem becomes_edit (script : Script β) (change : Edit β) :
    script.Becomes change (script.edit change) := by
  cases change with
  | addGraph parent name =>
    refine becomes_unlessRefused fun next hn => ?_
    obtain ⟨added, ha, rfl⟩ := map_eq_ok.1 hn
    exact .addGraph ha
  | setGraphName graph name => exact .renamed graph name
  | removeGraph graph => exact becomes_unlessRefused fun next hn => .removeGraph hn
  | addNode graph builder =>
    refine becomes_unlessRefused fun next hn => ?_
    obtain ⟨added, ha, rfl⟩ := map_eq_ok.1 hn
    exact .addNode rfl ha
  | removeNode node =>
    refine becomes_unlessRefused fun next hn => ?_
    obtain ⟨removed, hr, rfl⟩ := map_eq_ok.1 hn
    exact .removeNode hr
  | connect o i => exact .rewired (script.unwired_connect o i)
  | connectByName source output target input =>
    refine becomes_unlessRefused fun next hn => ?_
    obtain ⟨made, hm, rfl⟩ := map_eq_ok.1 hn
    obtain ⟨o, -, hm⟩ := bind_eq_ok.1 hm
    obtain ⟨i, -, hm⟩ := bind_eq_ok.1 hm
    obtain rfl := Except.ok.inj hm
    exact .rewired (script.unwired_connect ⟨source, o⟩ ⟨target, i⟩)
  | disconnect o i => exact .rewired (script.unwired_disconnect o i)
  | disconnectOutput o => exact .rewired (script.unwired_disconnectOutput o)
  | disconnectInput i => exact .rewired (script.unwired_disconnectInput i)
  | connectValue ref cell => exact becomes_unlessRefused fun next hn => .bound hn
  | connectValueByName node name cell =>
    refine becomes_unlessRefused fun next hn => ?_
    obtain ⟨index, -, hn⟩ := bind_eq_ok.1 hn
    exact .bound hn
  | disconnectValue ref cell => exact .unbound ref cell
  | setProperty node name value =>
    exact .written trivial (script.setProperty_skeleton node name value)
  | setLinkValue ref slot value =>
    exact .written trivial (script.setLinkValue_skeleton ref slot value)
  | setLocalProperty node name value =>
    exact .written trivial
      (script.modifyNode_skeleton node fun n => n.setLocalProperty_skeleton name value)
  | setValue node value =>
    exact .written trivial (script.modifyNode_skeleton node fun n => n.setValue_skeleton value)
  | activateOutput node index =>
    exact .written trivial
      (script.modifyNode_skeleton node fun n => n.activateOutput_skeleton index)

/-- Some of the members are taken out, perhaps none. -/
def Dismisses (before after : Script β) : Prop :=
  ∃ keep : Member → Bool, after.members = before.members.filter keep

theorem dismisses_of_members {before after : Script β} (h : after.members = before.members) :
    before.Dismisses after :=
  ⟨fun _ => true, h.trans (List.filter_eq_self.2 fun _ _ => rfl).symm⟩

theorem Dismisses.removeNode {before script : Script β} {id : NodeId}
    {removed : Node β × Script β} (h : script.removeNode id = .ok removed)
    (hd : before.Dismisses script) : before.Dismisses removed.2 := by
  obtain ⟨keep, hk⟩ := hd
  refine ⟨fun m => m.id ≠ id && keep m, ?_⟩
  rw [members_removeNode h, hk, List.filter_filter]

/-- An edit adds one member at the end or takes members out. -/
theorem members_edit (script : Script β) (change : Edit β) :
    script.Dismisses (script.edit change) ∨ ∃ graph builder, change = .addNode graph builder
      ∧ (script.edit change).members
        = script.members ++ [⟨⟨script.nextNode⟩, graph, builder.shape⟩] := by
  have start := dismisses_of_members (rfl : script.members = script.members)
  generalize script.edit change = after, script.becomes_edit change = h
  cases h with
  | refused => exact .inl start
  | addGraph done =>
    unfold Script.addGraph at done
    split at done
    · obtain rfl := Except.ok.inj done
      exact .inl start
    · cases done
  | renamed graph name => exact .inl start
  | removeGraph done =>
    exact .inl (removeGraph_keeps Dismisses.removeNode (fun _ _ hs => hs) done start)
  | addNode asked done => exact .inr ⟨_, _, asked, members_addNode done⟩
  | removeNode done => exact .inl (start.removeNode done)
  | rewired same => exact .inl (dismisses_of_members (members_of_unwired same))
  | bound done =>
    obtain ⟨-, rfl⟩ := connectValue_eq_ok.1 done
    exact .inl (dismisses_of_members (script.members_modifyLink _ fun _ => rfl))
  | unbound ref cell =>
    exact .inl (dismisses_of_members (script.members_disconnectValue ref cell))
  | written asked same => exact .inl (dismisses_of_members (members_of_skeleton same))

variable [Behavior β]

theorem members_update {director after : Director β} {fuel : Nat} {sim real : Float}
    {ending : Except Halt Report} (h : director.update fuel sim real = some (ending, after)) :
    after.script.members = director.script.members :=
  members_of_skeleton (skeleton_lasting.update h)

/-- What holds of the shape of every permitted description holds of every node of a reachable
script. -/
theorem Reachable.forall_members {placed : NodeBuilder β → Prop} {P : NodeBuilder Unit → Prop}
    (hp : ∀ builder, placed builder → P builder.shape) {script : Script β}
    (h : script.Reachable placed) : ∀ m ∈ script.members, P m.shape := by
  refine h.induction (P := fun s => ∀ m ∈ s.members, P m.shape) ?_ ?_ ?_
  · intro name m hm
    cases hm
  · intro script change places hs m hm
    rcases script.members_edit change with ⟨keep, h⟩ | ⟨graph, builder, rfl, h⟩ <;> rw [h] at hm
    · exact hs m (List.mem_filter.1 hm).1
    · rcases List.mem_append.1 hm with hm | hm
      · exact hs m hm
      · rw [List.mem_singleton.1 hm]
        exact hp builder places
  · intro director after fuel sim real ending hu hs
    rw [members_update hu]
    exact hs

end Script

end FlowScript
