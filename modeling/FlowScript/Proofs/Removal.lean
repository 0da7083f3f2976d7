import FlowScript.Proofs.Preorder
import FlowScript.Proofs.Without

/-!
# What the removal of a graph leaves

A graph goes with the graphs that are nested in it and the nodes of all these. They are dismantled
one by one, the innermost graphs first, and while that lasts a graph may list another that is gone
(`gutted`); in the end only the parent has listed what is gone (`Arena.lopped_eq`). Taking the nodes
first, and the graphs then, comes to the same.
-/

namespace FlowScript

variable {β : Type}

namespace Script

/-- The nodes of the given graphs. -/
def residents (script : Script β) (graphs : List GraphId) : List NodeId :=
  (script.nodes.filter (·.graph ∈ graphs)).map (·.id)

/-- The script without a graph, what is nested in it and the nodes of all these. The parent lists
the graph no more. Of the nodes that stay, inputs and outputs list no node that is gone, and value
links no cell. -/
def lopped (script : Script β) (graph : Graph) : Script β :=
  let inner := script.subtree graph.id
  let doomed := script.residents inner
  { script with
    graphs := (script.graphs.filter (·.id ∉ inner)).map fun g =>
      if graph.parent = some g.id then g.removeSubGraph graph.id else g
    nodes := (script.nodes.filter (·.graph ∉ inner)).map
      (·.stripped doomed (script.cellsAmong doomed))
    byType := script.byType.map fun e => (e.1, e.2.filter (· ∉ doomed)) }

/-! ## Graphs -/

theorem mem_residents {script : Script β} {graphs : List GraphId} {id : NodeId} :
    id ∈ script.residents graphs ↔ ∃ node ∈ script.nodes, node.graph ∈ graphs ∧ node.id = id := by
  simp only [residents, List.mem_map, List.mem_filter, decide_eq_true_eq, and_assoc]

theorem residents_congr (script : Script β) {graphs graphs' : List GraphId}
    (h : ∀ id, id ∈ graphs ↔ id ∈ graphs') :
    script.residents graphs = script.residents graphs' := by
  simp only [residents, h]

/-- The script without the given graphs and their nodes, where a graph that stays may still list one
that is gone. -/
def gutted (script : Script β) (graphs : List GraphId) : Script β :=
  let emptied := script.without [] (script.residents graphs)
  { emptied with graphs := emptied.graphs.filter (·.id ∉ graphs) }

/-- Nodes can be gone after graphs were forgotten as well as before. -/
theorem without_forgetful (script : Script β) (graphs : List GraphId) (nodes : List NodeId) :
    ({ script with graphs := script.graphs.filter (·.id ∉ graphs) } : Script β).without [] nodes
      = { script.without [] nodes with
          graphs := (script.without [] nodes).graphs.filter (·.id ∉ graphs) } := by
  simp only [without, List.filter_map, List.filter_filter, List.not_mem_nil, not_false_eq_true,
    decide_true, Bool.true_and, Bool.and_true, Function.comp_def]
  rfl

theorem gutted_gutted (script : Script β) (graphs graphs' : List GraphId) :
    (script.gutted graphs).gutted graphs' = script.gutted (graphs ++ graphs') := by
  let bare := script.without [] (script.residents graphs)
  have hmem : ∀ id, id ∈ script.residents graphs ++ (script.gutted graphs).residents graphs' ↔
      id ∈ script.residents (graphs ++ graphs') := by
    intro id
    rw [List.mem_append, mem_residents, mem_residents, mem_residents]
    constructor
    · rintro (⟨node, hn, hg, hid⟩ | ⟨node, hn, hg, hid⟩)
      · exact ⟨node, hn, List.mem_append_left _ hg, hid⟩
      · obtain ⟨old, ho, rfl⟩ := List.mem_map.1 hn
        exact ⟨old, (List.mem_filter.1 ho).1, List.mem_append_right _ hg, hid⟩
    · rintro ⟨node, hn, hg, rfl⟩
      by_cases hgone : node.id ∈ script.residents graphs
      · exact .inl (mem_residents.1 hgone)
      · have hstays : node.stripped (script.residents graphs)
            (script.cellsAmong (script.residents graphs)) ∈ (script.gutted graphs).nodes :=
          List.mem_map_of_mem (List.mem_filter.2 ⟨hn, decide_eq_true hgone⟩)
        refine .inr ⟨_, hstays, (List.mem_append.1 hg).resolve_left fun hg => ?_, rfl⟩
        exact hgone (mem_residents.2 ⟨node, hn, hg, rfl⟩)
  have hbare : (script.gutted graphs).without [] ((script.gutted graphs).residents graphs')
      = { script.without [] (script.residents (graphs ++ graphs')) with
          graphs := (script.without [] (script.residents (graphs ++ graphs'))).graphs.filter
            (·.id ∉ graphs) } := by
    have hstep := bare.without_forgetful graphs ((script.gutted graphs).residents graphs')
    rw [without_without, script.without_congr (fun _ => .rfl) hmem] at hstep
    exact hstep
  rw [gutted, hbare, gutted]
  dsimp only
  rw [filter_gone Graph.id]

namespace Filed

variable {script : Script β} (h : script.Filed)

include h

/-- What a graph lists as its members are its nodes. -/
theorem residents_single (id : GraphId) :
    (script.graph? id).elim [] (·.nodes) = script.residents [id] := by
  have hone : script.residents [id] = (script.members.filter (·.graph = id)).map (·.id) := by
    rw [residents, members, List.filter_map, List.map_map]
    simp only [List.mem_singleton]
    rfl
  rw [hone]
  rcases hg : script.graph? id with _ | graph
  · have hnone : id ∉ script.graphs.map (·.id) := by
      rw [← containsGraph_iff, containsGraph, hg]
      exact Bool.false_ne_true
    have hempty : script.members.filter (·.graph = id) = [] :=
      List.filter_eq_nil_iff.2 fun m hm heq => hnone (of_decide_eq_true heq ▸ h.housed m hm)
    rw [hempty]
    rfl
  · obtain rfl : graph.id = id := by simpa using List.find?_some hg
    exact h.listed graph (List.mem_of_find?_eq_some hg)

theorem nodup_residents (graphs : List GraphId) : (script.residents graphs).Nodup :=
  h.nodup_nodes.sublist (List.filter_sublist.map _)

omit h in
theorem live_residents {graphs : List GraphId} {id : NodeId} (hid : id ∈ script.residents graphs) :
    id ∈ script.nodes.map (·.id) :=
  (List.filter_sublist.map _).subset hid

end Filed

namespace Tidy

/-- A graph can be forgotten once its nodes are removed. -/
theorem gutted {script : Script β} (h : script.Tidy) (id : GraphId) :
    (script.gutted [id]).Tidy := by
  obtain ⟨hr, hleft⟩ := h.removeNodes_eq (h.filed.nodup_residents [id])
    fun _ hid => Filed.live_residents hid
  refine ⟨?_, hleft.paired.of_wiring ⟨rfl, rfl⟩, hleft.indexed⟩
  have he : removeNodes ((script.graph? id).elim [] (·.nodes)) script
      = .ok (script.without [] (script.residents [id])) := by
    rw [h.filed.residents_single, hr]
  have hdropped := h.filed.dropped he
  simp only [Script.gutted, List.mem_singleton]
  exact hdropped

theorem removeGraphs_eq : ∀ {script : Script β}, script.Tidy → ∀ graphs : List GraphId,
    removeGraphs graphs script = .ok (script.gutted graphs)
  | script, h, [] => by
    have hnone : script.residents [] = [] := by
      rw [residents, List.map_eq_nil_iff, List.filter_eq_nil_iff]
      simp
    rw [removeGraphs, Script.gutted, hnone, without_nil, filter_none_gone Graph.id]
  | script, h, id :: graphs => by
    obtain ⟨hr, -⟩ := h.removeNodes_eq (h.filed.nodup_residents [id])
      fun _ hid => Filed.live_residents hid
    have hrest := removeGraphs_eq (h.gutted id) graphs
    rw [gutted_gutted] at hrest
    rw [removeGraphs, h.filed.residents_single, hr]
    simp only [Script.gutted, List.mem_singleton] at hrest
    exact hrest

end Tidy

/-- A node of a graph that is gone is gone. -/
theorem Filed.mem_residents_iff {script : Script β} (h : script.Filed) {node : Node β}
    (hn : node ∈ script.nodes) (graphs : List GraphId) :
    node.id ∈ script.residents graphs ↔ node.graph ∈ graphs := by
  rw [mem_residents]
  constructor
  · rintro ⟨other, ho, hg, hid⟩
    rwa [eq_of_key h.nodup_nodes ho hn hid] at hg
  · exact fun hg => ⟨node, hn, hg, rfl⟩

/-- A graph that stays lists all its members as before. -/
theorem Filed.nodes_of_staying {script : Script β} (h : script.Filed) {g : Graph}
    (hg : g ∈ script.graphs) {graphs : List GraphId} (hstays : g.id ∉ graphs) :
    g.nodes.filter (· ∉ script.residents graphs) = g.nodes := by
  refine List.filter_eq_self.2 fun id hid => decide_eq_true ?_
  rw [h.listed g hg, members, List.filter_map, List.map_map] at hid
  obtain ⟨node, hn, rfl⟩ := List.mem_map.1 hid
  obtain ⟨hn, hhome⟩ := List.mem_filter.1 hn
  have hhome : node.graph = g.id := of_decide_eq_true hhome
  exact fun hgone => hstays (hhome ▸ (h.mem_residents_iff hn graphs).1 hgone)

theorem Filed.graphs_gutted {script : Script β} (h : script.Filed) (graphs : List GraphId) :
    (script.gutted graphs).graphs = script.graphs.filter (·.id ∉ graphs) := by
  have hbare : (script.gutted graphs).graphs = ((script.graphs.map
      (·.stripped [] (script.residents graphs))).filter (·.id ∉ graphs)) := by
    rw [gutted, without, filter_none_gone Graph.id]
  rw [hbare, List.filter_map]
  refine (List.map_congr_left fun g hstays => ?_).trans (List.map_id _)
  obtain ⟨hg, hstays⟩ := List.mem_filter.1 hstays
  have hnodes := h.nodes_of_staying hg (of_decide_eq_true hstays)
  rw [Graph.stripped, filter_none_gone fun a => a, hnodes]
  rfl

theorem Filed.nodes_gutted {script : Script β} (h : script.Filed) (graphs : List GraphId) :
    script.nodes.filter (·.id ∉ script.residents graphs)
      = script.nodes.filter (·.graph ∉ graphs) := by
  refine List.filter_congr fun n hn => ?_
  simp only [h.mem_residents_iff hn]

section graph

variable {script : Script β} (ha : script.Arena) {graph : Graph} (hg : graph ∈ script.graphs)
  (hroot : graph.id ≠ rootGraph)

include ha hg hroot

theorem Arena.exists_parent : ∃ parent, graph.parent = some parent := by
  rcases hp : graph.parent with _ | parent
  · exact absurd ((ha.nesting.orphan graph hg).1 hp) hroot
  · exact ⟨parent, rfl⟩

/-- Of the graphs that stay, only the parent has listed what is gone. -/
theorem Arena.lopped_eq : script.lopped graph = script.without (script.subtree graph.id)
    (script.residents (script.subtree graph.id)) := by
  obtain ⟨parent, hp⟩ := ha.exists_parent hg hroot
  have hin := mem_subtree ha.nesting (List.mem_map_of_mem hg)
  have hgraphs : ∀ g ∈ script.graphs.filter (·.id ∉ script.subtree graph.id),
      (if graph.parent = some g.id then g.removeSubGraph graph.id else g)
        = g.stripped (script.subtree graph.id)
          (script.residents (script.subtree graph.id)) := by
    intro g hstays
    obtain ⟨hg', hstays⟩ := List.mem_filter.1 hstays
    rw [decide_eq_true_eq] at hstays
    have hsubs : g.subGraphs.filter (· ∉ script.subtree graph.id)
        = g.subGraphs.filter (· ≠ graph.id) := by
      refine List.filter_congr fun sub hs => ?_
      obtain ⟨inner, hi, rfl, hparent⟩ := (ha.nesting.mem_subGraphs hg').1 hs
      rw [hin] at hstays
      simp only [hin, ha.nesting.within_iff hi hparent, hstays, false_or, ne_eq]
    have hnodes := ha.filed.nodes_of_staying hg' hstays
    rw [Graph.stripped, hnodes, hsubs, ← ha.nesting.subGraphs_pruned hg hp hg', hp]
    by_cases hown : g.id = parent
    · rw [if_pos (congrArg some hown.symm), if_pos hown]
      rfl
    · rw [if_neg fun heq => hown (Option.some.inj heq).symm, if_neg hown]
  rw [lopped, without, ha.filed.nodes_gutted, List.map_congr_left hgraphs]

/-- The removal of a graph takes the graph, what is nested in it and the nodes of all these. -/
theorem Tidy.removeGraph_eq (h : script.Tidy) :
    script.removeGraph graph.id = .ok (script.lopped graph) := by
  have hfound : script.graph? graph.id = some graph := ha.nesting.find?_eq hg
  obtain ⟨parent, hp⟩ := ha.exists_parent hg hroot
  have hsame : script.gutted (script.subtree graph.id).reverse
      = script.gutted (script.subtree graph.id) := by
    rw [Script.gutted, script.residents_congr fun _ => List.mem_reverse, Script.gutted]
    simp only [List.mem_reverse]
  have hgutted := h.removeGraphs_eq (script.subtree graph.id).reverse
  rw [hsame] at hgutted
  have hlists : ∀ g : Graph, (if g.id = parent then g.removeSubGraph graph.id else g)
      = if graph.parent = some g.id then g.removeSubGraph graph.id else g := by
    intro g
    simp only [hp, Option.some.injEq, eq_comm]
  have hrest : (script.gutted (script.subtree graph.id)).modifyGraph parent
      (·.removeSubGraph graph.id) = script.lopped graph := by
    rw [modifyGraph, ha.filed.graphs_gutted, lopped, ← ha.filed.nodes_gutted]
    simp only [hlists]
    rfl
  rw [Script.removeGraph, if_neg hroot, hfound]
  dsimp only
  rw [hgutted, hp]
  exact congrArg Except.ok hrest

end graph

/-! ## Reachable scripts -/

theorem Indexed.edit {script : Script β} (h : script.Indexed) (change : Edit β) :
    (script.edit change).Indexed := by
  generalize script.edit change = after, script.becomes_edit change = hb
  cases hb with
  | refused => exact h
  | addGraph done =>
    unfold Script.addGraph at done
    split at done
    · obtain rfl := Except.ok.inj done
      exact h
    · cases done
  | renamed graph name => exact h
  | removeGraph done =>
    exact removeGraph_keeps (P := Indexed) (fun hr hs => hs.removeNode hr) (fun _ _ hs => hs) done h
  | addNode asked done =>
    obtain ⟨-, rfl⟩ := addNode_eq_ok done
    exact Keyed.nodup_insert _ h
  | removeNode done => exact h.removeNode done
  | rewired same =>
    have htypes := congrArg Script.byType same
    exact (congrArg (fun m => (Keyed.keys m).Nodup) htypes).mpr h
  | bound done =>
    obtain ⟨-, rfl⟩ := connectValue_eq_ok.1 done
    exact h
  | unbound ref cell =>
    unfold Script.disconnectValue
    split
    · exact h
    · split <;> exact h
  | written asked same =>
    have htypes := congrArg Script.byType same
    exact (congrArg (fun m => (Keyed.keys m).Nodup) htypes).mpr h

section reachable

variable [Behavior β] {script : Script β} (h : script.Reachable NodeBuilder.Made)

include h

theorem Reachable.tidy : script.Tidy := by
  refine ⟨h.arena.filed, h.paired, ?_⟩
  refine h.induction (P := Indexed) (fun _ => List.nodup_nil) (fun _ change _ hs => hs.edit change)
    fun _ _ _ _ _ _ hu hs => ?_
  have htypes := congrArg Script.byType (skeleton_lasting.update hu)
  exact (congrArg (fun m => (Keyed.keys m).Nodup) htypes).mpr hs

theorem Reachable.of_removeGraph {id : GraphId} {rest : Script β}
    (hr : script.removeGraph id = .ok rest) : rest.Reachable NodeBuilder.Made := by
  have hedit := h.edited (.removeGraph id) trivial
  rwa [Script.edit, hr] at hedit

theorem Reachable.of_removeNodes {ids : List NodeId} {rest : Script β}
    (hr : removeNodes ids script = .ok rest) : rest.Reachable NodeBuilder.Made := by
  refine removeNodes_keeps (fun {script id removed} hr hs => ?_) ids hr h
  have hedit := hs.edited (.removeNode id) trivial
  rwa [Script.edit, hr] at hedit

end reachable

variable [Behavior β]

/-- Graphs without nodes can be removed one by one, each after those that are nested in it. -/
theorem Reachable.removeEmpty : ∀ {graphs : List GraphId} {script : Script β},
    script.Reachable NodeBuilder.Made →
    (∀ id ∈ graphs, id ∈ script.graphs.map (·.id) ∧ id ≠ rootGraph) →
    (∀ node ∈ script.nodes, node.graph ∉ graphs) →
    (∀ id ∈ graphs, ∀ b, Within script.graphs id b → b ∈ graphs) →
    graphs.Pairwise (¬ Within script.graphs · ·) →
    graphs.foldlM Script.removeGraph script = .ok (script.without graphs [])
  | [], script, h, _, _, _, _ => by
    rw [without_nil]
    rfl
  | id :: graphs, script, h, hlive, hempty, hclosed, hsorted => by
    rw [List.forall_mem_cons] at hlive hclosed
    rw [List.pairwise_cons] at hsorted
    obtain ⟨graph, hg, rfl⟩ := List.mem_map.1 hlive.1.1
    have hnest := h.arena.nesting
    have hinner : ∀ b, b ∈ script.subtree graph.id ↔ b ∈ [graph.id] := by
      intro b
      rw [mem_subtree hnest (List.mem_map_of_mem hg), List.mem_singleton]
      refine ⟨fun hw => ?_, fun heq => heq ▸ .refl⟩
      exact (List.mem_cons.1 (hclosed.1 b hw)).resolve_right fun hb => hsorted.1 b hb hw
    have hnone : ∀ id, id ∈ script.residents (script.subtree graph.id) ↔ id ∈ [] := by
      intro id
      rw [script.residents_congr hinner, mem_residents]
      refine iff_of_false ?_ List.not_mem_nil
      rintro ⟨node, hn, hgraph, -⟩
      exact hempty node hn (List.mem_singleton.1 hgraph ▸ List.mem_cons_self)
    have hr := h.tidy.removeGraph_eq h.arena hg hlive.1.2
    rw [h.arena.lopped_eq hg hlive.1.2, script.without_congr hinner hnone] at hr
    have hnext := h.of_removeGraph hr
    have hleft : ∀ id ∈ graphs, id ∈ (script.without [graph.id] []).graphs.map (·.id) := by
      intro id hid
      rw [mem_graphs_without, List.mem_singleton]
      exact ⟨(hlive.2 id hid).1, fun heq => hsorted.1 id hid (heq ▸ .refl)⟩
    have hrest := removeEmpty hnext (fun id hid => ⟨hleft id hid, (hlive.2 id hid).2⟩)
      (fun node hn hgraph => ?nodes) (fun id hid b hw => ?closed)
      (hsorted.2.imp fun hapart hw => hapart (within_of_without hw))
    case nodes =>
      obtain ⟨old, ho, rfl⟩ := List.mem_map.1 hn
      exact hempty old (List.mem_filter.1 ho).1 (List.mem_cons_of_mem _ hgraph)
    case closed =>
      refine (List.mem_cons.1 (hclosed.2 id hid b (within_of_without hw))).resolve_left ?_
      have hb := hnext.arena.nesting.live_of_within (hleft id hid) hw
      rw [mem_graphs_without, List.mem_singleton] at hb
      exact hb.2
    rw [without_without] at hrest
    rw [List.foldlM_cons, hr]
    exact hrest

variable {script : Script β}

section emptied

variable {graph : Graph} (hg : graph ∈ script.graphs) (hroot : graph.id ≠ rootGraph)
  (h : script.Reachable NodeBuilder.Made) {emptied : Script β}
  (he : emptied.Reachable NodeBuilder.Made)
  (hsame : emptied = script.without [] (script.residents (script.subtree graph.id)))

include hg hroot h he hsame

/-- Once the nodes are gone, the graph can be removed with all that is nested in it. -/
theorem removeGraph_emptied : emptied.removeGraph graph.id = .ok (script.lopped graph) := by
  have ha := h.arena
  have hinner := mem_subtree ha.nesting (List.mem_map_of_mem hg)
  have hstays : ∀ g ∈ script.graphs,
      g.stripped [] (script.residents (script.subtree graph.id)) ∈ emptied.graphs := by
    intro g hg
    rw [hsame]
    exact List.mem_map_of_mem (List.mem_filter.2 ⟨hg, decide_eq_true List.not_mem_nil⟩)
  -- The graphs list the same graphs as before, and no nodes.
  have hgraphs : ∀ id, id ∈ emptied.subtree graph.id ↔ id ∈ script.subtree graph.id := by
    have hlive : graph.id ∈ emptied.graphs.map (·.id) :=
      List.mem_map.2 ⟨_, hstays graph hg, rfl⟩
    intro id
    rw [mem_subtree he.arena.nesting hlive, hinner]
    constructor
    · rw [hsame]
      exact within_of_without
    · refine Within.mono fun g hg => ⟨_, hstays g hg, rfl, fun sub hs => ?_⟩
      exact List.mem_filter.2 ⟨hs, decide_eq_true List.not_mem_nil⟩
  have hnodes : ∀ id, id ∈ script.residents (script.subtree graph.id)
      ++ emptied.residents (emptied.subtree graph.id) ↔
        id ∈ script.residents (script.subtree graph.id) := by
    intro id
    rw [List.mem_append, residents_congr _ hgraphs, or_iff_left_iff_imp, mem_residents, hsame]
    rintro ⟨node, hn, hgraph, rfl⟩
    obtain ⟨old, hold, rfl⟩ := List.mem_map.1 hn
    exact mem_residents.2 ⟨old, (List.mem_filter.1 hold).1, hgraph, rfl⟩
  have hr := he.tidy.removeGraph_eq he.arena (hstays graph hg) hroot
  rw [he.arena.lopped_eq (hstays graph hg) hroot] at hr
  refine hr.trans (congrArg Except.ok ?_)
  rw [ha.lopped_eq hg hroot, ← script.without_congr hgraphs hnodes, ← List.nil_append
    (emptied.subtree graph.id), ← without_without, ← hsame]
  rfl

/-- Once the nodes are gone, the graphs can be removed one by one. -/
theorem removeGraphs_emptied {graphs : List GraphId} (hp : graphs.Perm (script.subtree graph.id))
    (hsorted : graphs.Pairwise (¬ Within script.graphs · ·)) :
    graphs.foldlM Script.removeGraph emptied = .ok (script.lopped graph) := by
  have ha := h.arena
  have hinner := mem_subtree ha.nesting (List.mem_map_of_mem hg)
  have hwithin {a b : GraphId} (hw : Within emptied.graphs a b) : Within script.graphs a b := by
    rw [hsame] at hw
    exact within_of_without hw
  have hr := he.removeEmpty (fun id hid => ?live) (fun node hn => ?nodes)
    (fun id hid b hw => ?closed) (hsorted.imp fun hapart hw => hapart (hwithin hw))
  case live =>
    rw [hp.mem_iff, hinner] at hid
    rw [hsame, mem_graphs_without]
    refine ⟨⟨ha.nesting.live_of_within (List.mem_map_of_mem hg) hid, List.not_mem_nil⟩, ?_⟩
    rintro rfl
    exact hroot (ha.nesting.eq_root_of_within hid)
  case nodes =>
    rw [hsame] at hn
    obtain ⟨old, hold, rfl⟩ := List.mem_map.1 hn
    obtain ⟨hold, hstays⟩ := List.mem_filter.1 hold
    rw [decide_eq_true_eq, ha.filed.mem_residents_iff hold] at hstays
    rwa [hp.mem_iff]
  case closed =>
    rw [hp.mem_iff, hinner] at hid ⊢
    exact hid.trans (hwithin hw)
  rw [hr, hsame, without_without, ha.lopped_eq hg hroot, List.append_nil, List.nil_append,
    script.without_congr (fun _ => hp.mem_iff) fun _ => .rfl]

end emptied

/-- In every script that a host can come by, the removal of a graph other than the root takes
exactly the graphs that lie within it and their nodes: what stays keeps its place, the parent lists
the graph no more, and links list what they listed but for what is gone. Of a value link this holds
as far as it can be read, and of all that it lists exactly if no link that stays lists a node that
is gone and is no cell. Removing the nodes one by one in any order comes to the same, if the graph
is removed then, or the graphs that lie within it one by one, each after those that are nested in
it. Nodes can be removed in any order at all. Where bindings name cells, no link lists a node that
is no cell. -/
theorem Reachable.removals (h : script.Reachable NodeBuilder.Made) :
    (∀ graph ∈ script.graphs, graph.id ≠ rootGraph →
      script.removeGraph graph.id = .ok (script.lopped graph)
        ∧ (∀ id, id ∈ script.subtree graph.id ↔ Within script.graphs graph.id id)
        ∧ (∀ ref, ref.node ∉ script.residents (script.subtree graph.id) →
          (script.lopped graph).liveBindings ref = (script.liveBindings ref).filter
            (· ∉ script.residents (script.subtree graph.id)))
        ∧ ((∀ ref, ref.node ∉ script.residents (script.subtree graph.id) →
          (script.lopped graph).bound ref = (script.bound ref).filter
            (· ∉ script.residents (script.subtree graph.id)))
              ↔ ¬ script.Clings (script.residents (script.subtree graph.id)))
        ∧ ∀ order : List NodeId, order.Perm (script.residents (script.subtree graph.id)) →
          ∃ emptied, removeNodes order script = .ok emptied
            ∧ emptied.removeGraph graph.id = .ok (script.lopped graph)
            ∧ ∀ graphs : List GraphId, graphs.Perm (script.subtree graph.id) →
              graphs.Pairwise (¬ Within script.graphs · ·) →
              graphs.foldlM Script.removeGraph emptied = .ok (script.lopped graph))
      ∧ (∀ ids order : List NodeId, ids.Nodup → (∀ id ∈ ids, id ∈ script.nodes.map (·.id)) →
        order.Perm ids → removeNodes order script = .ok (script.without [] ids))
      ∧ (∀ a ∈ script.nodes.map (·.id), ∀ b ∈ script.nodes.map (·.id),
        removeNodes [a, b] script = removeNodes [b, a] script)
      ∧ (script.Grounded → ∀ nodes, ¬ script.Clings nodes) := by
  have ha := h.arena
  refine ⟨fun graph hg hroot => ?_,
    fun ids order hn hlive hp => h.tidy.removeNodes_perm hn hlive hp, fun a hla b hlb => ?_,
    fun hg _ => hg.not_clings⟩
  case refine_2 =>
    by_cases hab : a = b
    · rw [hab]
    have hn : [a, b].Nodup := by simpa using hab
    have hlive : ∀ id ∈ [a, b], id ∈ script.nodes.map (·.id) :=
      List.forall_mem_cons.2 ⟨hla, List.forall_mem_singleton.2 hlb⟩
    rw [h.tidy.removeNodes_perm hn hlive (.refl _),
      h.tidy.removeNodes_perm hn hlive (.swap a b [])]
  have hinner := mem_subtree ha.nesting (List.mem_map_of_mem hg)
  have hlopped := ha.lopped_eq hg hroot
  refine ⟨h.tidy.removeGraph_eq ha hg hroot, hinner, fun ref hstays => ?_, ?_, fun order ho => ?_⟩
  · rw [hlopped, liveBindings_without, if_neg hstays]
  · rw [hlopped]
    exact script.bound_without_iff _ _
  have hdone := h.tidy.removeNodes_perm (ha.filed.nodup_residents _)
    (fun _ hid => Filed.live_residents hid) ho
  have he := h.of_removeNodes hdone
  exact ⟨_, hdone, removeGraph_emptied hg hroot h he rfl,
    fun graphs hp hsorted => removeGraphs_emptied hg hroot h he rfl hp hsorted⟩

/-- How to come by a graph with another one in it, of which a node is connected to itself and to two
nodes of the root and a cell is bound within and without. -/
def stowing : List (Edit Standard) :=
  [.addGraph rootGraph "shed", .addGraph ⟨1⟩ "drawer", .addNode rootGraph Standard.startNode,
    .addNode ⟨1⟩ Standard.branchNode, .addNode ⟨2⟩ (Standard.cell "Boolean" (.bool true)),
    .addNode rootGraph Standard.branchNode,
    .connect ⟨⟨0⟩, 0⟩ ⟨⟨1⟩, 0⟩, .connect ⟨⟨0⟩, 0⟩ ⟨⟨3⟩, 0⟩, .connect ⟨⟨1⟩, 0⟩ ⟨⟨1⟩, 0⟩,
    .connect ⟨⟨1⟩, 1⟩ ⟨⟨3⟩, 0⟩, .connectValue ⟨⟨1⟩, 0⟩ ⟨2⟩, .connectValue ⟨⟨3⟩, 0⟩ ⟨2⟩]

/-- A graph that a script is going to lose. -/
def shed : Graph where
  id := ⟨1⟩
  name := "shed"
  parent := some rootGraph
  subGraphs := [⟨2⟩]
  nodes := [⟨1⟩]

/-- A script with a graph in a graph. -/
def yard : Script Standard := stowing.foldl Script.edit (withRootName "root")

theorem reachable_yard : yard.Reachable NodeBuilder.Declared := by
  have created (type : TypeId) {builder : NodeBuilder Standard}
      (h : Standard.registry.create type [] = .ok builder) : builder.Declared :=
    Standard.places_declared type [] builder h
  refine .edits (.fresh "root") fun change hc => ?_
  simp only [stowing, List.mem_cons, List.not_mem_nil, or_false] at hc
  rcases hc with rfl | rfl | rfl | rfl | rfl | rfl | rfl | rfl | rfl | rfl | rfl | rfl
  · trivial
  · trivial
  · exact created startEventType rfl
  · exact created (coreType "Branch") rfl
  · exact ⟨.value _ _ _, List.forall_mem_nil _⟩
  · exact created (coreType "Branch") rfl
  all_goals trivial

/-- The graph goes with what is in it, or bit by bit, and the links across its border go with it. -/
theorem removals_of_yard : ∃ rest emptied, yard.removeGraph ⟨1⟩ = .ok rest
    ∧ removeNodes [⟨2⟩, ⟨1⟩] yard = .ok emptied
    ∧ [⟨2⟩, ⟨1⟩].foldlM Script.removeGraph emptied = .ok rest
    ∧ rest.nodes.map (·.id) = [⟨0⟩, ⟨3⟩] ∧ rest.targets ⟨⟨0⟩, 0⟩ = [⟨⟨3⟩, 0⟩]
    ∧ rest.sources ⟨⟨3⟩, 0⟩ = [⟨⟨0⟩, 0⟩] ∧ rest.bound ⟨⟨3⟩, 0⟩ = []
    ∧ removeNodes [⟨0⟩, ⟨2⟩] yard = removeNodes [⟨2⟩, ⟨0⟩] yard := by
  have made : yard.Reachable NodeBuilder.Made := reachable_yard.mono fun _ hb => hb.made
  obtain ⟨hgraphs, -, hswap, -⟩ := Reachable.removals made
  obtain ⟨hr, -, -, -, horder⟩ := hgraphs shed (by decide +kernel) (by decide)
  have hdoomed : [⟨2⟩, ⟨1⟩].Perm (yard.residents (yard.subtree shed.id)) := by
    have hlist : yard.residents (yard.subtree shed.id) = [⟨1⟩, ⟨2⟩] := by decide +kernel
    rw [hlist]
    exact .swap _ _ []
  obtain ⟨emptied, hdone, -, heach⟩ := horder _ hdoomed
  have hinner : [⟨2⟩, ⟨1⟩].Perm (yard.subtree shed.id) := by
    have hlist : yard.subtree shed.id = [⟨1⟩, ⟨2⟩] := by decide +kernel
    rw [hlist]
    exact .swap _ _ []
  have hsorted : [⟨2⟩, ⟨1⟩].Pairwise (¬ Within yard.graphs · ·) := by
    refine List.pairwise_pair.2 fun hw => ?_
    have hle := reachable_yard.arena.nesting.le_of_within hw
    exact absurd hle (by decide)
  exact ⟨_, emptied, hr, hdone, heach _ hinner hsorted, by decide +kernel, by decide +kernel,
    by decide +kernel, by decide +kernel,
    hswap ⟨0⟩ (by decide +kernel) ⟨2⟩ (by decide +kernel)⟩

/-- How to come by a copy of the parameters of the postbox and a graph with another node. -/
def lodging : List (Edit Standard) :=
  [.addNode rootGraph copyNode, .addGraph rootGraph "lodge", .addNode ⟨1⟩ Standard.startNode]

/-- A script in which a value link lists a node that is no cell. -/
def inn : Script Standard := lodging.foldl Script.edit (withRootName "root")

/-- The graph goes, and the value link goes on listing the node that was in it. -/
theorem clings_of_inn : postbox.Reachable NodeBuilder.Made
    ∧ postbox.link? ⟨⟨0⟩, 0⟩ = some paramLink
    ∧ inn.Reachable NodeBuilder.Made
    ∧ inn.residents (inn.subtree ⟨1⟩) = [⟨1⟩] ∧ inn.bound ⟨⟨0⟩, 0⟩ = [⟨1⟩, ⟨2⟩]
    ∧ inn.Clings [⟨1⟩]
    ∧ ∃ rest, inn.removeGraph ⟨1⟩ = .ok rest ∧ rest.nodes.map (·.id) = [⟨0⟩]
      ∧ rest.bound ⟨⟨0⟩, 0⟩ = [⟨1⟩, ⟨2⟩] := by
  have hr : inn.Reachable NodeBuilder.Made := by
    refine .edits (.fresh "root") fun change hc => ?_
    simp only [lodging, List.mem_cons, List.not_mem_nil, or_false] at hc
    rcases hc with rfl | rfl | rfl
    · exact .link _ (.action _ _)
    · trivial
    · exact .output _ (.event _ _)
  have hbound : inn.bound ⟨⟨0⟩, 0⟩ = [⟨1⟩, ⟨2⟩] := by decide +kernel
  have hleft : ∃ rest, inn.removeGraph ⟨1⟩ = .ok rest ∧ rest.nodes.map (·.id) = [⟨0⟩]
      ∧ rest.bound ⟨⟨0⟩, 0⟩ = [⟨1⟩, ⟨2⟩] :=
    ⟨_, rfl, by decide +kernel, by decide +kernel⟩
  refine ⟨reachable_postbox.mono fun _ hb => hb.made, rfl, hr, by decide +kernel, hbound,
    ⟨⟨⟨0⟩, 0⟩, ⟨1⟩, by decide, ?_, List.mem_singleton_self _, by decide +kernel⟩, hleft⟩
  rw [hbound]
  exact List.mem_cons_self

end Script

end FlowScript
