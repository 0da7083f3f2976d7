import FlowScript.Proofs.Built
import FlowScript.Proofs.Cells

/-!
# Nodes that were instantiated

Whatever happens to a node, it keeps the links that it was described with and every property that it
had, and no property gets the name of a link (`Descends`). So a standard node is created again from
its description, except that the number of outputs of a switch is what its `OutputCount` says by
then (`Native.created`).
-/

namespace FlowScript

variable {β : Type}

/-! ## What a node keeps of its description -/

/-- The description that would give the node as it is. -/
def Node.draft (node : Node β) (behavior : β) : NodeBuilder β where
  type := node.type
  kind := node.kind
  valueType := node.valueType
  inputs := node.inputs
  outputs := node.outputs
  links := node.links
  properties := node.properties
  behavior := behavior

/-- The node is as it was described, but for values and for properties that were added. -/
def Node.Descends (node : Node β) (described : NodeBuilder β) : Prop :=
  described.Overridden (node.draft described.behavior)

namespace Node.Descends

variable {node node' : Node β} {described : NodeBuilder β}

theorem node_shape (h : node.Descends described) : node.shape = described.shape :=
  NodeBuilder.Overridden.shape h

theorem congr (h : node.Descends described) (hs : node'.shape = node.shape)
    (hp : node'.properties = node.properties) : node'.Descends described where
  shape := hs.trans h.shape
  behavior := rfl
  names := by
    rw [draft, hp]
    exact h.names
  distinct := by
    rw [draft, hp]
    exact h.distinct
  apart := by
    rw [draft, hp]
    exact h.apart

/-- A property that is not the default of a value link is described as it is. -/
theorem property_nodeDef (h : node.Descends described) (hr : described.Regular) (names : Names)
    {name : String} (hn : name ∉ described.links.map (·.name)) :
    Keyed.get? (Script.nodeDef names node).properties name = Keyed.get? node.properties name := by
  have hlinks := ValueLink.names_of_shape (congrArg NodeBuilder.links h.node_shape)
  have hplain : Keyed.get? (node.links.map fun link => (link.name, link.default)) name = none := by
    rw [Keyed.get?_eq_none, Keyed.keys, List.map_map]
    exact hlinks ▸ hn
  rw [node.properties_nodeDef names (hlinks ▸ h.apart) (hlinks ▸ hr.linkNames), Keyed.get?_append,
    hplain, Option.or_none]

theorem insert (h : node.Descends described) {name : String}
    (hn : name ∉ described.links.map (·.name)) (value : Property) :
    ({ node with properties := Keyed.insert node.properties name value } : Node β).Descends
      described :=
  NodeBuilder.Overridden.property h hn

variable (hcell : described.valueType.isSome = true → described.links = [])

include hcell

theorem setValue (h : node.Descends described) (value : Property) :
    (node.setValue value).2.Descends described := by
  unfold Node.setValue
  split
  · rename_i stored hstored
    obtain ⟨type, htype, -⟩ := Option.bind_eq_some_iff.1 hstored
    have hsame : node.valueType = described.valueType :=
      (congrArg NodeBuilder.valueType h.node_shape :)
    refine h.insert ?_ stored
    rw [hcell (by rw [← hsame, htype]; rfl)]
    exact List.not_mem_nil
  · exact h

theorem setLocalProperty (h : node.Descends described) (name : String) (value : Property) :
    (node.setLocalProperty name value).2.Descends described := by
  unfold Node.setLocalProperty
  split
  · exact h.setValue hcell value
  split
  · rename_i links hlinks
    refine h.congr ?_ rfl
    simp only [Node.shape, ValueLink.shape_setDefault? hlinks]
  · rename_i hlinks
    refine h.insert ?_ value
    rw [← ValueLink.names_of_shape (congrArg NodeBuilder.links h.node_shape)]
    exact ValueLink.setDefault?_eq_none.1 hlinks

theorem change (hc : node.Change node') (h : node.Descends described) :
    node'.Descends described := by
  cases hc with
  | linked same =>
    refine h.congr ?_ (congrArg Node.properties same :)
    rw [← node'.shape_cleared, same, node.shape_cleared]
  | default index value =>
    have hlinks := map_modify ValueLink.shape (f := ({ · with default := value })) (fun _ => rfl)
      node.links index
    refine h.congr ?_ rfl
    simp only [Node.shape, modifyLink, hlinks]
  | cell value => exact h.setValue hcell value
  | written name value => exact h.setLocalProperty hcell name value
  | booked booked =>
    refine h.congr ?_ ?_
    · rw [← node'.shape_skeleton, booked.skeleton, node.shape_skeleton]
    · obtain ⟨behavior, outputs, rfl, -⟩ := booked
      rfl

theorem changes (hc : node.Changes node') (h : node.Descends described) :
    node'.Descends described := by
  induction hc with
  | refl => exact h
  | tail _ hlast ih => exact ih.change hcell hlast

end Node.Descends

theorem Node.Stocked.changes {node node' : Node β} (hs : node.Stocked)
    (hd : node.shape.DeclaresCell) (hc : node.Changes node')
    (hsame : node'.valueType = node.valueType) : node'.Stocked := by
  intro type htype
  rw [hsame] at htype
  obtain ⟨stored, hstored, heq⟩ := hs type htype
  have hkind : node.kind = .value := hd.2 (Option.isSome_iff_exists.2 ⟨type, htype⟩)
  have guards : node.Guards type stored := ⟨stored, ⟨hkind, htype, hstored⟩, .inr rfl⟩
  obtain ⟨value, held, hvalue⟩ := guards.changes hc
  refine ⟨value, held.cell, ?_⟩
  rcases hvalue with hvalue | rfl
  · exact hvalue
  · exact heq

/-! ## Standard nodes -/

/-- What the registry of the standard nodes describes. -/
def Standard.Instantiated (builder : NodeBuilder Standard) : Prop :=
  ∃ type properties, registry.create type properties = .ok builder

/-- The node is one of the standard nodes, whatever has happened to it. -/
def Node.Native (node : Node Standard) : Prop :=
  (∃ entry ∈ Standard.catalog, ∃ authored, node.Descends (entry.2 authored)) ∧ node.Stocked

theorem Standard.Instantiated.native {builder : NodeBuilder Standard}
    (h : Standard.Instantiated builder) (id : NodeId) (graph : GraphId) :
    (builder.build id graph).Native := by
  obtain ⟨type, properties, hc⟩ := h
  obtain ⟨factory, hf, ho⟩ := Standard.create_eq_ok hc
  have hmem := Standard.mem_catalog_of_get? hf
  have hst := Standard.standing_of_mem_catalog _ hmem properties
  have hregular := Standard.regular_of_mem_catalog _ hmem properties
  have hover := NodeBuilder.Overridden.withOverrides hst.apart properties
    ⟨rfl, rfl, List.prefix_rfl, hregular.propertyNames, hregular.apart⟩ ho
  refine ⟨⟨_, hmem, properties, ⟨hover.shape, rfl, hover.names, hover.distinct, hover.apart⟩⟩, ?_⟩
  exact NodeBuilder.stocked_withOverrides properties hst.stocked ho

namespace Node.Native

variable {node node' : Node Standard}

theorem changes (hc : node.Changes node') (h : node.Native) : node'.Native := by
  obtain ⟨⟨entry, he, authored, hd⟩, hs⟩ := h
  have hst := Standard.standing_of_mem_catalog entry he authored
  have hd' := hd.changes hst.apart hc
  refine ⟨⟨entry, he, authored, hd'⟩, hs.changes (hd.node_shape ▸ hst.declares) hc ?_⟩
  exact (congrArg NodeBuilder.valueType (hd'.node_shape.trans hd.node_shape.symm) :)

end Node.Native

namespace Standard

theorem get?_of_mem_catalog : ∀ e ∈ catalog, Keyed.get? registry.factories e.1 = some e.2 := by
  have hall : registry.factories = catalog := rfl
  rw [hall]
  refine fun e he => Keyed.get?_of_mem ?_ he
  decide

theorem switch_mem_catalog : (coreType "Switch", switchNode) ∈ catalog :=
  List.mem_cons_of_mem _ (List.mem_cons_of_mem _ List.mem_cons_self)

theorem type_switchNode (properties : PropertySet) :
    (switchNode properties).type = coreType "Switch" := rfl

theorem keys_switchNode (properties : PropertySet) :
    Keyed.keys (switchNode properties).properties = ["OutputCount", "Looping"] := rfl

theorem links_switchNode (properties : PropertySet) :
    (switchNode properties).links = [.input "CurrentIndex" (.int 1)] := rfl

theorem outputCount_not_mem_links (properties : PropertySet) :
    "OutputCount" ∉ (switchNode properties).links.map (·.name) := by
  rw [links_switchNode]
  decide

theorem shape_switchNode (properties properties' : PropertySet) : (switchNode properties).shape =
    { (switchNode properties').shape with
      outputs := (switchNode properties).outputs.map .shape } := by
  simp only [NodeBuilder.shape, switchNode, withOutputs, NodeBuilder.link, NodeBuilder.property,
    NodeBuilder.input, NodeBuilder.action]

theorem outputCount_congr {properties properties' : PropertySet}
    (h : Keyed.get? properties "OutputCount" = Keyed.get? properties' "OutputCount") :
    outputCount properties = outputCount properties' := by
  rw [outputCount, outputCount, h]

theorem switchNode_congr {properties properties' : PropertySet}
    (h : Keyed.get? properties "OutputCount" = Keyed.get? properties' "OutputCount") :
    switchNode properties = switchNode properties' := by
  rw [switchNode, switchNode, outputCount_congr h]

end Standard

/-- The outputs that the node has when it is created again. -/
def Node.relaid (node : Node Standard) : List OutputLink :=
  if node.type = coreType "Switch" then (Standard.switchNode node.properties).outputs
  else node.outputs

/-- An output is there again, unless it is one of a switch that says that it has fewer. -/
theorem Node.lt_relaid {node : Node Standard} {index : Nat} (h : index < node.outputs.length) :
    index < node.relaid.length ↔ (node.type = coreType "Switch" →
      (index : Int) < (Standard.outputCount node.properties).toInt) := by
  rw [relaid]
  split
  · rename_i hswitch
    rw [Standard.outputs_switchNode, List.length_map, List.length_range, Int.lt_toNat]
    exact ⟨fun hlt _ => hlt, fun hall => hall hswitch⟩
  · rename_i hother
    exact iff_of_true h fun hswitch => absurd hswitch hother

/-- A switch with the outputs that it is given then is as its factory describes it now. -/
theorem Node.Descends.relaid_switch {node : Node Standard} {authored : PropertySet}
    (hd : node.Descends (Standard.switchNode authored))
    (names : Names) : ({ node with
      outputs := (Standard.switchNode node.properties).outputs } : Node Standard).Descends
        (Standard.switchNode (Script.nodeDef names node).properties) := by
  have hget := hd.property_nodeDef (Standard.regular_switchNode authored) names
    (Standard.outputCount_not_mem_links authored)
  -- Stated for the node itself, lest descriptions of switches are compared.
  have hkeys : Keyed.keys (Standard.switchNode authored).properties <+:
      Keyed.keys node.properties :=
    hd.names
  have hdistinct : (Keyed.keys node.properties).Nodup := hd.distinct
  have hapart : ∀ name ∈ Keyed.keys node.properties,
      name ∉ (Standard.switchNode authored).links.map (·.name) := hd.apart
  rw [Standard.keys_switchNode] at hkeys
  rw [Standard.links_switchNode] at hapart
  rw [Standard.switchNode_congr hget]
  refine ⟨?_, rfl, ?_, hdistinct, ?_⟩
  · rw [Standard.shape_switchNode node.properties authored, ← hd.node_shape]
    rfl
  · rw [Standard.keys_switchNode]
    exact hkeys
  · rw [Standard.links_switchNode]
    exact hapart

namespace Node.Native

variable {node : Node Standard} (h : node.Native)

include h

theorem entry : ∃ entry ∈ Standard.catalog, ∃ authored,
    entry.1 = node.type ∧ node.Descends (entry.2 authored) := by
  obtain ⟨⟨entry, he, authored, hd⟩, -⟩ := h
  refine ⟨entry, he, authored, ?_, hd⟩
  rw [← Standard.type_of_mem_catalog entry he authored]
  exact (congrArg NodeBuilder.type hd.node_shape :).symm

theorem descends {entry : TypeId × Factory Standard} (he : entry ∈ Standard.catalog)
    (htype : node.type = entry.1) : ∃ authored, node.Descends (entry.2 authored) := by
  obtain ⟨entry', he', authored, htype', hd⟩ := h.entry
  have hget := Standard.get?_of_mem_catalog entry' he'
  rw [htype', htype, Standard.get?_of_mem_catalog _ he] at hget
  rw [← Option.some.inj hget] at hd
  exact ⟨authored, hd⟩

/-- With the outputs that it is given then, the node is as its factory describes it now. -/
theorem relaid (names : Names) : ∃ entry ∈ Standard.catalog, entry.1 = node.type
    ∧ ({ node with outputs := node.relaid } : Node Standard).Descends
      (entry.2 (Script.nodeDef names node).properties) := by
  by_cases hswitch : node.type = coreType "Switch"
  · obtain ⟨authored, hd⟩ := h.descends Standard.switch_mem_catalog hswitch
    refine ⟨_, Standard.switch_mem_catalog, hswitch.symm, ?_⟩
    rw [Node.relaid, if_pos hswitch]
    exact Descends.relaid_switch hd names
  · obtain ⟨entry, he, authored, htype, hd⟩ := h.entry
    refine ⟨entry, he, htype, ?_⟩
    -- Every other factory gives the same description whatever is authored.
    rcases Standard.shaped_of_mem_catalog entry he with hfixed | hfactory
    · rw [Node.relaid, if_neg hswitch, hfixed _ authored]
      exact hd
    · have hcatalog := Standard.type_of_mem_catalog entry he authored
      rw [hfactory, Standard.type_switchNode, htype] at hcatalog
      exact absurd hcatalog.symm hswitch

/-- From its description the node is created again, with nothing joined to it. -/
theorem created (names : Names) : ∃ builder behavior,
    Standard.registry.create node.type (Script.nodeDef names node).properties = .ok builder
      ∧ builder.build node.id node.graph =
        ({ node with outputs := node.relaid } : Node Standard).reset (some behavior) := by
  obtain ⟨entry, he, htype, hd⟩ := h.relaid names
  have hst := Standard.standing_of_mem_catalog entry he (Script.nodeDef names node).properties
  obtain ⟨builder, hb, hbuild⟩ := @NodeBuilder.Overridden.rebuilt Standard _ _
    { node with outputs := node.relaid } hd
    (Standard.regular_of_mem_catalog entry he _) hst.apart rfl rfl h.2 names
  refine ⟨builder, _, ?_, hbuild⟩
  rw [Registry.create, ← htype, Standard.get?_of_mem_catalog entry he]
  exact hb

theorem distinct : node.Distinct := by
  obtain ⟨⟨entry, he, authored, hd⟩, -⟩ := h
  exact Node.distinct_of_shape he hd.node_shape

theorem declaresCell : node.isValueNode = true ↔ node.valueType.isSome = true := by
  obtain ⟨⟨entry, he, authored, hd⟩, -⟩ := h
  exact Node.declaresCell_of_shape he hd.node_shape

/-- What outputs are called does not depend on how many there are. -/
theorem relaid_names : (node.relaid.map (·.name)).Nodup
    ∧ (node.outputs.map (·.name) <+: node.relaid.map (·.name)
      ∨ node.relaid.map (·.name) <+: node.outputs.map (·.name)) := by
  by_cases hswitch : node.type = coreType "Switch"
  · obtain ⟨authored, hd⟩ : ∃ authored, node.Descends (Standard.switchNode authored) :=
      h.descends Standard.switch_mem_catalog hswitch
    rw [Node.relaid, if_pos hswitch]
    refine ⟨(Standard.regular_switchNode node.properties).outputNames, ?_⟩
    have hout : node.outputs.map (·.name) =
        (Standard.switchNode authored).outputs.map (·.name) := by
      have hshape := congrArg (List.map (·.name)) (congrArg NodeBuilder.outputs hd.node_shape :)
      simp only [shape, NodeBuilder.shape, List.map_map] at hshape
      exact hshape
    have hnames : ∀ properties, (Standard.switchNode properties).outputs.map (·.name) =
        (List.range (Standard.outputCount properties).toInt.toNat).map
          fun i => "Out" ++ (i + 1).repr := by
      intro properties
      rw [Standard.outputs_switchNode, List.map_map]
      rfl
    have hrange : ∀ {m n : Nat}, m ≤ n → List.range m <+: List.range n := by
      intro m n hle
      obtain ⟨k, rfl⟩ := Nat.exists_eq_add_of_le hle
      rw [List.range_add]
      exact List.prefix_append _ _
    rw [hout, hnames, hnames]
    exact (Nat.le_total _ _).imp (fun hle => (hrange hle).map _) fun hle => (hrange hle).map _
  · rw [Node.relaid, if_neg hswitch]
    exact ⟨h.distinct.outputs, .inl List.prefix_rfl⟩

end Node.Native

namespace Script

theorem Reachable.native {script : Script Standard}
    (h : script.Reachable Standard.Instantiated) :
    ∀ id node, script.node? id = some node → node.Native := by
  have lasts : ∀ {before after : Script Standard}, before.Changes after →
      (∀ id node, before.node? id = some node → node.Native) →
      ∀ id node, after.node? id = some node → node.Native := by
    intro before after hc hs id node' hn'
    obtain ⟨node, hn, hchanges⟩ := hc id node' hn'
    exact (hs id node hn).changes hchanges
  refine h.induction (P := fun s => ∀ id node, s.node? id = some node → node.Native)
    (fun _ _ _ hn => nomatch hn) (fun script change places hs => ?_)
    fun _ _ _ _ _ _ hu hs => lasts (changes_lasting.update hu) hs
  rcases script.changes_edit change with hc | ⟨graph, builder, added, rfl, hadd, heq⟩
  · exact lasts hc hs
  · rw [heq]
    exact forall_addNode hadd hs fun _ => places.native _ _

end Script

end FlowScript
