import FlowScript.Proofs.Saved

/-!
# A saved script under new numbers

A saved script is loaded with the same tree of graphs (`branches_definition`), the same nodes
(`hollow_again`) and the same names (`name_again`). Graphs and nodes are numbered anew, in the order
in which the definition tells them.
-/

namespace FlowScript

variable {β : Type}

/-- So many ids of graphs, from the given one on. -/
def graphIds (graph count : Nat) : List GraphId := (List.range' graph count).map GraphId.mk

theorem map_append_graphIds {place : GraphId → GraphId} {ids ids' : List GraphId} {k : Nat}
    (h : (ids ++ ids').map place = graphIds k (ids ++ ids').length) :
    ids.map place = graphIds k ids.length
      ∧ ids'.map place = graphIds (k + ids.length) ids'.length := by
  rw [List.map_append, List.length_append, graphIds, ← List.range'_append_1, List.map_append] at h
  refine List.append_inj h ?_
  rw [List.length_map, graphIds, List.length_map, List.length_range']

/-- The graph without its parent and members. -/
def Graph.branch (graph : Graph) : Graph := { graph with parent := none, nodes := [] }

/-- The graph without its parent and members, under other ids. -/
def Graph.moved (graph : Graph) (place : GraphId → GraphId) : Graph where
  id := place graph.id
  name := graph.name
  parent := none
  subGraphs := graph.subGraphs.map place

namespace Script

variable {script : Script β}

/-! ## Graphs -/

/-- If ids are given in the order of its tree, a graph becomes a tree with these ids. -/
def Mirrored (script : Script β) (names : Names) (place : GraphId → GraphId) (fuel : Nat)
    (id : GraphId) : Prop :=
  ∀ parent k node, (script.subtree id).map place = graphIds k (script.subtree id).length →
    (GraphDef.graphs (script.graphDef names fuel id) parent k node).map .branch =
      (script.subtree id).filterMap fun id => (script.graph? id).map (·.moved place)

section tree

variable (h : script.Arena) (names : Names) (place : GraphId → GraphId)

include h

theorem length_preorder {graph : Graph} (hg : graph ∈ script.graphs) {fuel : Nat}
    (hf : Nesting.AtMost script.graphs fuel graph.id) :
    (script.graphDef names fuel graph.id).preorder.length = (script.subtree graph.id).length := by
  rw [graphDef_eq h names hg fuel hf, preorder_describe h names hg, List.length_map]

/-- What holds of the trees that a graph lists holds of all of them together. -/
theorem mirrored_all {fuel : Nat} {graph : Graph} (hg : graph ∈ script.graphs)
    (hf : Nesting.AtMost script.graphs (fuel + 1) graph.id) : ∀ {subs : List GraphId},
      (∀ sub ∈ subs, sub ∈ graph.subGraphs ∧ script.Mirrored names place fuel sub) →
      ∀ parent k node,
        (subs.flatMap script.subtree).map place =
          graphIds k (subs.flatMap script.subtree).length →
        GraphDef.roots (subs.map (script.graphDef names fuel)) k = subs.map place
          ∧ (GraphDef.graphsAll (subs.map (script.graphDef names fuel)) parent k node).map .branch =
            (subs.flatMap script.subtree).filterMap fun id =>
              (script.graph? id).map (·.moved place)
  | [], _, _, _, _, _ => by
    refine ⟨rfl, ?_⟩
    rw [List.map_nil, GraphDef.graphsAll]
    rfl
  | sub :: subs, hsubs, parent, k, node, hplace => by
    rw [List.forall_mem_cons] at hsubs
    obtain ⟨⟨hs, hmirrored⟩, hrest⟩ := hsubs
    obtain ⟨inner, hi, rfl, -⟩ := (h.nesting.mem_subGraphs hg).1 hs
    rw [List.flatMap_cons] at hplace ⊢
    -- The ids of the first tree come first, then those of the other trees.
    obtain ⟨hhere, hthere⟩ := map_append_graphIds hplace
    have hlength := length_preorder h names hi (hf.sub h.nesting hg hs)
    have hroot : place inner.id = ⟨k⟩ := by
      rw [subtree_eq h.nesting hi, List.map_cons, List.length_cons, graphIds, List.range'_succ]
        at hhere
      exact (List.cons.inj hhere).1
    obtain ⟨hroots, hall⟩ := mirrored_all hg hf hrest parent (k + (script.subtree inner.id).length)
      (node + (script.graphDef names fuel inner.id).entries.length) hthere
    constructor
    · rw [List.map_cons, GraphDef.roots, hlength, hroots, List.map_cons, hroot]
    · rw [List.map_cons, GraphDef.graphsAll, hlength, List.map_append, hall,
        hmirrored _ _ _ hhere, List.filterMap_append]

theorem mirrored {graph : Graph} (hg : graph ∈ script.graphs) : ∀ fuel,
    Nesting.AtMost script.graphs fuel graph.id → script.Mirrored names place fuel graph.id := by
  refine h.nesting.bottom_up (P := fun id => ∀ fuel, Nesting.AtMost script.graphs fuel id →
    script.Mirrored names place fuel id) (fun outer ho ih fuel hf => ?_) graph hg
  rcases fuel with _ | fuel
  · exact absurd hf.pos (Nat.lt_irrefl _)
  intro parent k node hplace
  have hfind : script.graph? outer.id = some outer := h.nesting.find?_eq ho
  rw [subtree_eq h.nesting ho, List.map_cons, List.length_cons, graphIds, List.range'_succ,
    List.map_cons, List.cons.injEq] at hplace
  obtain ⟨hroots, hall⟩ := mirrored_all h names place ho hf
    (fun sub hs => ⟨hs, ih sub hs fuel (hf.sub h.nesting ho hs)⟩) ⟨k⟩ (k + 1)
    (node + (outer.nodes.filterMap script.node?).length) hplace.2
  have hmoved : (script.graph? outer.id).map (·.moved place) = some (outer.moved place) := by
    rw [hfind, Option.map_some]
  rw [subtree_eq h.nesting ho, List.filterMap_cons, hmoved, graphDef, hfind, GraphDef.graphs_eq,
    List.map_cons, List.length_map, hall]
  congr 1
  simp only [Graph.branch, Graph.moved, hroots, hplace.1]

end tree

namespace Arena

variable (h : script.Arena)

include h

theorem map_place : (script.subtree rootGraph).map script.place =
    graphIds 0 (script.subtree rootGraph).length := by
  have hindex := @zipIdx_eq_map GraphId GraphId _ (fun id => id) (script.subtree rootGraph)
    (by rw [List.map_id']; exact h.nodup_subtree_root) 0
  have hsnd := congrArg (List.map fun e => (⟨e.2⟩ : GraphId)) hindex
  rw [List.map_map, List.map_id'] at hsnd
  rw [graphIds, ← List.zipIdx_map_snd 0 (script.subtree rootGraph), List.map_map]
  refine Eq.trans (List.map_congr_left fun id _ => ?_) hsnd.symm
  rw [Function.comp, Nat.zero_add]
  rfl

/-- The graphs that a definition of a script becomes are nested as those of the script. -/
theorem branches_definition (keys : Keys) :
    (GraphDef.graphs (script.definition keys) none 0 0).map .branch =
      (script.subtree rootGraph).filterMap fun id =>
        (script.graph? id).map (·.moved script.place) := by
  obtain ⟨root, hroot, hid⟩ := h.root_mem
  have hplace := h.map_place
  rw [← hid] at hplace
  rw [definition, ← hid]
  refine mirrored h _ _ hroot _ (fun ids hn hw => Nat.le_succ_of_le ?_) none 0 0 hplace
  exact h.nesting.atMost (List.mem_map_of_mem hroot) ids hn hw

end Arena

variable {registry : Registry β} {keys : Keys} {loaded : Loaded β}

theorem graph_again (h : script.Arena) (hb : (script.definition keys).Built registry loaded)
    {graph : Graph} (hg : graph ∈ script.graphs) : ∃ again ∈ loaded.script.graphs,
      again.id = script.place graph.id ∧ again.name = graph.name
        ∧ again.subGraphs = graph.subGraphs.map script.place := by
  have hfind : script.graph? graph.id = some graph := h.nesting.find?_eq hg
  have hmem : graph.moved script.place ∈ loaded.script.graphs.map .branch := by
    rw [hb.graphs, h.branches_definition]
    refine List.mem_filterMap.2 ⟨graph.id, h.mem_subtree_root.2 (List.mem_map_of_mem hg), ?_⟩
    rw [hfind, Option.map_some]
  obtain ⟨again, hagain, heq⟩ := List.mem_map.1 hmem
  simp only [Graph.branch, Graph.moved, Graph.mk.injEq] at heq
  exact ⟨again, hagain, heq.1, heq.2.1, heq.2.2.2.1⟩

theorem subtree_again (h : script.Arena) (ha : loaded.script.Arena)
    (hb : (script.definition keys).Built registry loaded) {id : GraphId}
    (hid : id ∈ script.graphs.map (·.id)) :
    loaded.script.subtree (script.place id) = (script.subtree id).map script.place := by
  obtain ⟨graph, hg, rfl⟩ := List.mem_map.1 hid
  refine h.nesting.bottom_up (P := fun id => loaded.script.subtree (script.place id) =
    (script.subtree id).map script.place) (fun outer ho ih => ?_) graph hg
  obtain ⟨again, hagain, hplace, -, hsubs⟩ := graph_again h hb ho
  rw [← hplace, subtree_eq ha.nesting hagain, hplace, hsubs, subtree_eq h.nesting ho,
    List.map_cons, List.flatMap_map, List.map_flatMap]
  exact congrArg _ (List.flatMap_congr ih)

/-! ## Names -/

theorem labels_definition (h : script.Arena) (keys : Keys) :
    labels (homes (script.definition keys).preorder 0) 0 =
      script.byGraph.map fun node =>
        ((Names.ofScript script keys).get node.id, script.number node.id) := by
  rw [labels, homes_definition h, List.zipIdx_map, List.map_map, zipIdx_eq_map h.nodup_byGraph,
    List.map_map]
  refine List.map_congr_left fun node _ => ?_
  simp only [Function.comp, Prod.map, Nat.zero_add]
  rfl

end Script

/-! ## Standard nodes -/

/-- The node under its new number, with the outputs that it is given then. -/
def Script.again (script : Script Standard) (node : Node Standard) : Node Standard :=
  { node with
    id := script.number node.id, graph := script.place node.graph, outputs := node.relaid }

namespace Script.Saved

variable {script : Script Standard} {keys : Keys} (h : script.Saved keys) {loaded : Loaded Standard}
  (hb : (script.definition keys).Built Standard.registry loaded)

include h hb

/-- The nodes of a saved script are there again, regrouped. -/
theorem hollow_again : loaded.script.nodes.map .hollow =
    script.byGraph.map fun node => (script.again node).hollow := by
  have hbare := congrArg (List.map Node.hollow) hb.nodes
  simp only [List.map_map, Function.comp_def, Node.hollow_bare] at hbare
  rw [created_definition h.arena, List.map_filterMap] at hbare
  rw [hbare, ← List.filterMap_eq_map]
  refine List.filterMap_congr fun node hn => ?_
  have hlive := h.arena.node?_eq (h.arena.perm_byGraph.mem_iff.1 hn)
  obtain ⟨builder, behavior, hc, hbuild⟩ := (h.native _ node hlive).created (.ofScript script keys)
  rw [hc]
  simp only [NodeBuilder.build, Node.reset, Node.mk.injEq] at hbuild
  obtain ⟨-, -, htype, hkind, hvalueType, hinputs, houtputs, hlinks, hproperties, -⟩ := hbuild
  simp only [Except.toOption, Option.map_some, Function.comp, NodeBuilder.build, Node.hollow,
    Node.reset, again, htype, hkind, hvalueType, hinputs, houtputs, hlinks, hproperties,
    List.map_map]
  rfl

theorem ids_again : loaded.script.nodes.map (·.id) =
    script.byGraph.map fun node => script.number node.id := by
  have hids := congrArg (List.map (·.id)) (h.hollow_again hb)
  rw [List.map_map, List.map_map] at hids
  exact hids

theorem labelled : loaded.Labelled where
  ids := by
    rw [h.ids_again hb, hb.keys, labels_definition h.arena, List.map_map]
    rfl
  nodup := by
    rw [hb.keys, keys_labels]
    have hnodup := nodup_keys h.arena h.keys
    rw [GraphDef.entries, ← nodes_homes _ 0, List.map_map] at hnodup
    exact hnodup

theorem name_again (ha : loaded.script.Arena) {id : NodeId} (hid : id ∈ script.nodes.map (·.id)) :
    (Names.ofScript loaded.script loaded.keys).get (script.number id) =
      (Names.ofScript script keys).get id := by
  have hlabelled := h.labelled hb
  rw [hlabelled.ofScript_eq ha rfl]
  refine (hlabelled.named ha (e := ((Names.ofScript script keys).get id, script.number id)) ?_).1
  obtain ⟨node, hn, rfl⟩ := List.mem_map.1 ((h.arena.perm_byGraph.map _).mem_iff.2 hid)
  rw [hb.keys, labels_definition h.arena]
  exact List.mem_map_of_mem hn

end Script.Saved

end FlowScript
