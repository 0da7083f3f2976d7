import FlowScript.Proofs.Played
import FlowScript.Proofs.Proper
import FlowScript.Proofs.Rewiring

/-!
# Scripts that are built

Building places all nodes first and joins them then. What is placed has its key and is as it was
created from its definition (`created_keeps`); joining changes connections and bindings only
(`joined`).
-/

namespace FlowScript

variable {β : Type}

/-- The node is as a registry describes it for authored values. -/
def Node.Created (node : Node β) (registry : Registry β) : Prop :=
  ∃ type properties builder, (Keyed.keys properties).Nodup
    ∧ registry.create type properties = .ok builder ∧ node = builder.build node.id node.graph

namespace Loaded

/-- The nodes have one key each, in order of creation. -/
structure Labelled (loaded : Loaded β) : Prop where
  ids : loaded.keys.map (·.2) = loaded.script.nodes.map (·.id)
  nodup : (Keyed.keys loaded.keys).Nodup

theorem labelled_keeps (registry : Registry β) :
    PlacingKeeps registry (fun _ => True) Labelled where
  graph done kept := by
    obtain ⟨-, rfl⟩ := Script.addGraph_eq_ok.1 done
    exact ⟨kept.ids, kept.nodup⟩
  node {loaded graph node builder added} _ new _ done kept := by
    obtain ⟨-, rfl⟩ := Script.addNode_eq_ok done
    have hout : node.key ∉ Keyed.keys loaded.keys := by
      rw [← Keyed.get?_eq_none, ← Option.not_isSome_iff_eq_none]
      simpa [Keyed.contains] using new
    refine ⟨?_, Keyed.nodup_insert _ kept.nodup⟩
    simp only [Keyed.insert_of_not_mem hout, Script.withNode, List.map_append, List.map_cons,
      List.map_nil, kept.ids]
    rfl

theorem created_keeps (registry : Registry β) : PlacingKeeps registry NodeDef.Proper
    fun loaded => ∀ node ∈ loaded.script.nodes, node.Created registry where
  graph done kept := by
    obtain ⟨-, rfl⟩ := Script.addGraph_eq_ok.1 done
    exact kept
  node asked _ created done kept := by
    obtain ⟨-, rfl⟩ := Script.addNode_eq_ok done
    exact List.forall_mem_append.2 ⟨kept,
      List.forall_mem_singleton.2 ⟨_, _, _, asked, created, rfl⟩⟩

theorem joined {graphs : List GraphDef} {placed loaded : Loaded β}
    (h : graphs.foldlM join placed = .ok loaded) :
    loaded.keys = placed.keys ∧ loaded.script.bare = placed.script.bare :=
  keeps_of_joins (P := fun l => l.keys = placed.keys ∧ l.script.bare = placed.script.bare)
    (fun l o i hl => ⟨hl.1, (Script.bare_of_unwired (l.script.unwired_connect o i)).trans hl.2⟩)
    (fun l ref cell script hc hl => by
      obtain ⟨-, rfl⟩ := Script.connectValue_eq_ok.1 hc
      exact ⟨hl.1, (l.script.bare_modifyLink ref (f := (·.attach cell)) fun _ => rfl).trans hl.2⟩)
    graphs h ⟨rfl, rfl⟩

theorem matched_of_joins {graphs : List GraphDef} {placed loaded : Loaded β}
    (h : graphs.foldlM join placed = .ok loaded) (hm : placed.script.Matched) :
    loaded.script.Matched :=
  keeps_of_joins (P := fun l => l.script.Matched)
    (fun l o i hl => hl.of_unwired (l.script.unwired_connect o i))
    (fun _ _ _ _ hc hl => hl.connectValue hc) graphs h hm

end Loaded

namespace Script

theorem node?_of_bare {script script' : Script β} (h : script'.bare = script.bare) {id : NodeId}
    {node' : Node β} (hn : script'.node? id = some node') :
    ∃ node, script.node? id = some node ∧ node'.bare = node.bare :=
  node?_of_alike (f := Node.bare) (fun _ => rfl) (congrArg Script.nodes h) hn

end Script

/-! ## Standard nodes -/

theorem NodeBuilder.stocked_withOverrides : ∀ (overrides : PropertySet)
    {builder builder' : NodeBuilder β} {id : NodeId} {graph : GraphId},
      (builder.build id graph).Stocked → builder.withOverrides overrides = .ok builder' →
        (builder'.build id graph).Stocked
  | [], builder, builder', id, graph, hs, ho => by
    rw [withOverrides] at ho
    obtain rfl := Except.ok.inj ho
    exact hs
  | (name, value) :: rest, builder, builder', id, graph, hs, ho => by
    rw [withOverrides] at ho
    obtain ⟨next, hn, ho⟩ := bind_eq_ok.1 ho
    refine stocked_withOverrides rest ?_ ho
    rcases override_eq_ok hn with
      ⟨type, stored, ht, rfl, hstored, rfl⟩ | ⟨links, -, rfl⟩ | ⟨hc, -, rfl⟩
    · intro type' htype'
      obtain rfl := Option.some.inj (ht.symm.trans htype')
      refine ⟨stored, ?_, hstored⟩
      simp only [build, property, Keyed.get?_insert, if_true]
    · exact hs
    · intro type' htype'
      have hne : name ≠ cellName := by
        rcases hc with hc | hc
        · have hnone : builder.valueType = some type' := htype'
          rw [hc] at hnone
          cases hnone
        · exact hc
      obtain ⟨old, hold, hsame⟩ := hs type' htype'
      refine ⟨old, ?_, hsame⟩
      simp only [build, property, Keyed.get?_insert, if_neg hne]
      exact hold

namespace Node

variable {node : Node Standard} {entry : TypeId × Factory Standard} {authored : PropertySet}

theorem distinct_of_shape (he : entry ∈ Standard.catalog)
    (hs : node.shape = (entry.2 authored).shape) : node.Distinct := by
  have hr := Standard.regular_of_mem_catalog entry he authored
  have hin := congrArg (List.map (·.name)) (congrArg NodeBuilder.inputs hs :)
  have hout := congrArg (List.map (·.name)) (congrArg NodeBuilder.outputs hs :)
  simp only [shape, NodeBuilder.shape, List.map_map] at hin hout
  refine ⟨?_, ?_, ?_⟩
  · exact hin ▸ hr.inputNames
  · exact hout ▸ hr.outputNames
  · rw [ValueLink.names_of_shape (congrArg NodeBuilder.links hs :)]
    exact hr.linkNames

theorem declaresCell_of_shape (he : entry ∈ Standard.catalog)
    (hs : node.shape = (entry.2 authored).shape) :
    node.isValueNode = true ↔ node.valueType.isSome = true :=
  Node.isValueNode_iff (hs ▸ (Standard.standing_of_mem_catalog entry he authored).declares)

end Node

theorem Standard.genuine_of_create {type : TypeId} {properties : PropertySet}
    {builder : NodeBuilder Standard} (hc : registry.create type properties = .ok builder)
    (id : NodeId) (graph : GraphId) : (builder.build id graph).Genuine := by
  obtain ⟨factory, hf, ho⟩ := create_eq_ok hc
  have hmem := mem_catalog_of_get? hf
  have hst := standing_of_mem_catalog _ hmem properties
  have hregular := regular_of_mem_catalog _ hmem properties
  have hover := NodeBuilder.Overridden.withOverrides hst.apart properties
    ⟨rfl, rfl, List.prefix_rfl, hregular.propertyNames, hregular.apart⟩ ho
  refine ⟨_, hmem, properties, hover.shape, fun b hb => ?_⟩
  rw [← Option.some.inj hb, hover.behavior]
  exact hst.blank

namespace Node.Created

variable {node : Node Standard} (h : node.Created Standard.registry)

include h

theorem stocked : node.Stocked := by
  obtain ⟨type, properties, builder, -, hc, heq⟩ := h
  obtain ⟨factory, hf, ho⟩ := Standard.create_eq_ok hc
  have hst := Standard.standing_of_mem_catalog _ (Standard.mem_catalog_of_get? hf) properties
  rw [heq]
  exact NodeBuilder.stocked_withOverrides properties hst.stocked ho

theorem genuine : node.Genuine := by
  obtain ⟨type, properties, builder, -, hc, heq⟩ := h
  rw [heq]
  exact Standard.genuine_of_create hc node.id node.graph

end Node.Created

namespace Node

variable {node node' : Node Standard}

theorem Genuine.of_bare (hg : node.Genuine) (h : node'.bare = node.bare) : node'.Genuine := by
  have shape_bare : ∀ n : Node Standard, n.bare.shape = n.shape := by
    intro n
    simp only [shape, bare, reset, List.map_map]
    rfl
  obtain ⟨entry, he, properties, hshape, hbehavior⟩ := hg
  refine ⟨entry, he, properties, ?_, fun b hb => hbehavior b ?_⟩
  · rw [← shape_bare, h, shape_bare, hshape]
  · rw [← hb]
    exact (congrArg Node.behavior h.symm :)

theorem Stocked.of_bare {node node' : Node β} (hs : node.Stocked) (h : node'.bare = node.bare) :
    node'.Stocked := by
  have hvalueType : node'.valueType = node.valueType := (congrArg Node.valueType h :)
  have hproperties : node'.properties = node.properties := (congrArg Node.properties h :)
  unfold Stocked
  rw [hvalueType, hproperties]
  exact hs

end Node

/-! ## Names -/

namespace Loaded.Labelled

variable {loaded : Loaded β} (h : loaded.Labelled)

include h

theorem nodup_ids (ha : loaded.script.Arena) : (loaded.keys.map (·.2)).Nodup := by
  rw [h.ids]
  exact ha.nodup_nodes

theorem ofScript_eq (ha : loaded.script.Arena) {later : Script β}
    (hn : later.nodes.map (·.id) = loaded.script.nodes.map (·.id)) :
    Names.ofScript later loaded.keys = loaded.keys.map fun e => (e.2, e.1) := by
  have hkeys : Keyed.keys (loaded.keys.map fun e => (e.2, e.1)) =
      loaded.script.nodes.map (·.id) := by
    rw [Keyed.keys, List.map_map, ← h.ids]
    rfl
  have hof : Names.ofKeys loaded.keys = loaded.keys.map fun e => (e.2, e.1) :=
    Keyed.insertAll_of_prefix (m := []) List.nil_prefix (hkeys ▸ ha.nodup_nodes)
  have hadd : ∀ ids : List NodeId, (∀ id ∈ ids, id ∈ loaded.script.nodes.map (·.id)) →
      ids.foldl Names.add (loaded.keys.map fun e => (e.2, e.1)) =
        loaded.keys.map fun e => (e.2, e.1) := by
    intro ids
    induction ids with
    | nil => exact fun _ => rfl
    | cons id ids ih =>
      intro hids
      rw [List.forall_mem_cons] at hids
      have hin : Keyed.contains (loaded.keys.map fun e => (e.2, e.1)) id = true := by
        rw [Keyed.contains, Option.isSome_iff_ne_none]
        exact fun hnone => Keyed.get?_eq_none.1 hnone (hkeys ▸ hids.1)
      rw [List.foldl_cons, Names.add, if_pos hin]
      exact ih hids.2
  rw [Names.ofScript, hof, hn]
  exact hadd _ fun _ hid => hid

/-- A key names its node and leads back to it. -/
theorem named (ha : loaded.script.Arena) {e : String × NodeId} (he : e ∈ loaded.keys) :
    Names.get (loaded.keys.map fun e => (e.2, e.1)) e.2 = e.1
      ∧ Keyed.get? loaded.keys e.1 = some e.2 := by
  have hkeys : Keyed.keys (loaded.keys.map fun e => (e.2, e.1)) = loaded.keys.map (·.2) := by
    rw [Keyed.keys, List.map_map]
    rfl
  have hname : Keyed.get? (loaded.keys.map fun e => (e.2, e.1)) e.2 = some e.1 :=
    Keyed.get?_of_mem (hkeys ▸ h.nodup_ids ha) (List.mem_map_of_mem (f := fun e => (e.2, e.1)) he)
  exact ⟨by rw [Names.get, hname, Option.getD_some], Keyed.get?_of_mem h.nodup he⟩

end Loaded.Labelled

end FlowScript
