import FlowScript.Event
import FlowScript.Proofs.Nesting
import Mathlib.Data.List.Nodup

/-!
# Nodes are filed where they belong

A node is listed by its graph and under its type, in order of creation, and nowhere else (`Filed`).
Removing a graph empties and drops the graphs within it one by one, so that halfway the lists of
nested graphs are wrong while the files of the nodes stay right: the two are followed apart
(`filed_removeGraphs`) and meet again when the parent has let go (`Arena.removeGraph`).
-/

namespace FlowScript

variable {β : Type}

theorem Keyed.get?_adjust {κ α : Type} [DecidableEq κ] (m : Keyed κ α) (key k : κ) (f : α → α) :
    get? (adjust m key f) k = if key = k then (get? m k).map f else get? m k := by
  induction m with
  | nil => simp [adjust, get?]
  | cons e m ih =>
    obtain ⟨k', v⟩ := e
    by_cases h : k' = key
    · subst h
      by_cases hk : k' = k <;> simp [adjust, get?, hk]
    · by_cases hk : k' = k
      · subst hk
        simp [adjust, get?, h, Ne.symm h]
      · simp [adjust, get?, h, hk, ih]

/-- What a graph lists as its members. -/
def Graph.roll (graph : Graph) : GraphId × List NodeId := (graph.id, graph.nodes)

namespace Script

/-- Nodes are in order of creation, and each is listed exactly by its graph and under its type. -/
structure Filed (script : Script β) : Prop where
  sorted : script.members.Pairwise (·.id.raw < ·.id.raw)
  below : ∀ m ∈ script.members, m.id.raw < script.nextNode
  housed : ∀ m ∈ script.members, m.graph ∈ script.graphs.map (·.id)
  listed : ∀ graph ∈ script.graphs,
    graph.nodes = (script.members.filter (·.graph = graph.id)).map (·.id)
  typed : ∀ type, (Keyed.get? script.byType type).getD [] =
    (script.members.filter (·.shape.type = type)).map (·.id)

/-- What the removal of a node does to the lists of nodes. -/
theorem filing_removeNode {script : Script β} {id : NodeId} {removed : Node β × Script β}
    (h : script.removeNode id = .ok removed) : ∃ node, script.node? id = some node
      ∧ removed.2.graphs =
        script.graphs.map (fun g => if g.id = node.graph then g.removeNode id else g)
      ∧ removed.2.byType = Keyed.adjust script.byType node.type (·.filter (· ≠ id))
      ∧ removed.2.nextGraph = script.nextGraph ∧ removed.2.nextNode = script.nextNode := by
  obtain ⟨node, hn, hu⟩ := removeNode_unwired h
  obtain rfl := id_of_node? hn
  refine ⟨node, hn, ?_⟩
  simp only [unwired, Script.mk.injEq] at hu
  obtain ⟨hgraphs, -, htypes, hgraph, hnode⟩ := hu
  rw [hgraphs, htypes, hgraph, hnode]
  unfold takeOut forget
  split
  · exact ⟨rfl, rfl, rfl, rfl⟩
  · exact ⟨rfl, rfl, rfl, rfl⟩

namespace Filed

variable {script script' : Script β} (h : script.Filed)

include h

theorem of_same (hm : script'.members = script.members)
    (hg : script'.graphs.map Graph.roll = script.graphs.map Graph.roll)
    (hb : script'.byType = script.byType) (hn : script'.nextNode = script.nextNode) :
    script'.Filed := by
  have hids : script'.graphs.map (·.id) = script.graphs.map (·.id) := by
    have hfst := congrArg (List.map Prod.fst) hg
    rw [List.map_map, List.map_map] at hfst
    exact hfst
  constructor
  · rw [hm]
    exact h.sorted
  · rw [hm, hn]
    exact h.below
  · rw [hm, hids]
    exact h.housed
  · intro graph hgraph
    have hroll : graph.roll ∈ script.graphs.map Graph.roll := hg ▸ List.mem_map_of_mem hgraph
    obtain ⟨old, hold, heq⟩ := List.mem_map.1 hroll
    simp only [Graph.roll, Prod.mk.injEq] at heq
    rw [← heq.1, ← heq.2, hm]
    exact h.listed old hold
  · rw [hb, hm]
    exact h.typed

theorem nodup : (script.members.map (·.id)).Nodup := nodup_of_sorted NodeId.raw h.sorted

theorem nodup_nodes : (script.nodes.map (·.id)).Nodup := by
  have hn := h.nodup
  rw [members, List.map_map] at hn
  exact hn

theorem node?_eq {node : Node β} (hn : node ∈ script.nodes) : script.node? node.id = some node :=
  find?_of_mem h.nodup_nodes hn

theorem withNode {graph : GraphId} (hg : graph ∈ script.graphs.map (·.id))
    (builder : NodeBuilder β) : (script.withNode graph builder).Filed := by
  let added : Member := ⟨⟨script.nextNode⟩, graph, builder.shape⟩
  have hmembers : (script.withNode graph builder).members = script.members ++ [added] := by
    simp only [Script.withNode, members, List.map_append, List.map_cons, List.map_nil]
    rfl
  have hgraphs : (script.withNode graph builder).graphs =
      script.graphs.map fun g => if g.id = graph then g.addNode ⟨script.nextNode⟩ else g := rfl
  have hid : ∀ g : Graph, (if g.id = graph then g.addNode ⟨script.nextNode⟩ else g).id = g.id := by
    intro g
    split <;> rfl
  have hids : (script.withNode graph builder).graphs.map (·.id) = script.graphs.map (·.id) :=
    Graph.map_ids hid script.graphs
  constructor
  · rw [hmembers, List.pairwise_append]
    refine ⟨h.sorted, List.pairwise_singleton _ _, ?_⟩
    simpa only [List.forall_mem_singleton] using h.below
  · rw [hmembers, List.forall_mem_append, List.forall_mem_singleton]
    refine ⟨fun m hm => ?_, Nat.lt_succ_self _⟩
    exact Nat.lt_succ_of_lt (h.below m hm)
  · rw [hmembers, hids, List.forall_mem_append, List.forall_mem_singleton]
    exact ⟨h.housed, hg⟩
  · rw [hmembers, hgraphs, List.forall_mem_map]
    intro g hg'
    rw [hid, List.filter_append, List.map_append, ← h.listed g hg']
    by_cases heq : g.id = graph
    · simp [heq, Graph.addNode, added]
    · simp [heq, Ne.symm heq, added]
  · intro type
    rw [hmembers, List.filter_append, List.map_append, ← h.typed type]
    simp only [Script.withNode, Keyed.get?_insert]
    by_cases heq : builder.type = type
    · simp [heq, added, NodeBuilder.shape]
    · simp [heq, added, NodeBuilder.shape]

theorem removeNode {id : NodeId} {removed : Node β × Script β}
    (hr : script.removeNode id = .ok removed) : removed.2.Filed := by
  obtain ⟨node, hn, hgraphs, htypes, -, hnext⟩ := filing_removeNode hr
  have hmembers := members_removeNode hr
  have hmem := node?_member hn
  have hnode : node.member.id = id := id_of_node? hn
  have hid : ∀ g : Graph, (if g.id = node.graph then g.removeNode id else g).id = g.id := by
    intro g
    split <;> rfl
  have hids : removed.2.graphs.map (·.id) = script.graphs.map (·.id) := by
    rw [hgraphs, Graph.map_ids hid]
  -- Lists of members other than this one's are as they were.
  have hother : ∀ p : Member → Bool, p node.member = false →
      (script.members.filter (·.id ≠ id)).filter p = script.members.filter p := by
    intro p hp
    rw [List.filter_filter]
    refine List.filter_congr fun m hm => ?_
    by_cases heq : m.id = id
    · rw [eq_of_key h.nodup hm hmem (heq.trans hnode.symm), hp, Bool.false_and]
    · simp [heq]
  have hown : ∀ p : Member → Bool, ((script.members.filter (·.id ≠ id)).filter p).map (·.id) =
      ((script.members.filter p).map (·.id)).filter (· ≠ id) := by
    intro p
    rw [List.filter_filter, List.filter_map, List.filter_filter]
    simp only [Function.comp_def, Bool.and_comm]
  constructor
  · rw [hmembers]
    exact h.sorted.filter _
  · rw [hmembers, hnext]
    exact fun m hm => h.below m (List.mem_filter.1 hm).1
  · rw [hmembers, hids]
    exact fun m hm => h.housed m (List.mem_filter.1 hm).1
  · rw [hmembers, hgraphs, List.forall_mem_map]
    intro g hg
    rw [hid]
    by_cases heq : g.id = node.graph
    · rw [hown, ← h.listed g hg, if_pos heq]
      rfl
    · rw [hother _ (decide_eq_false (Ne.symm heq)), if_neg heq]
      exact h.listed g hg
  · intro type
    rw [hmembers, htypes, Keyed.get?_adjust]
    by_cases heq : node.type = type
    · rw [hown, ← h.typed type, if_pos heq]
      rcases Keyed.get? script.byType type with _ | ids <;> rfl
    · rw [hother _ (decide_eq_false heq), if_neg heq]
      exact h.typed type

end Filed

/-! ## Removing graphs -/

theorem filed_removeNodes : ∀ (ids : List NodeId) {script rest : Script β}, script.Filed →
    removeNodes ids script = .ok rest → rest.Filed
      ∧ rest.members = script.members.filter (·.id ∉ ids)
      ∧ rest.graphs.map Graph.stem = script.graphs.map Graph.stem
      ∧ rest.nextGraph = script.nextGraph
  | [], script, rest, h, hr => by
    rw [removeNodes] at hr
    obtain rfl := Except.ok.inj hr
    have hall : script.members.filter (·.id ∉ []) = script.members :=
      List.filter_eq_self.2 fun _ _ => rfl
    exact ⟨h, hall.symm, rfl, rfl⟩
  | id :: ids, script, rest, h, hr => by
    rw [removeNodes] at hr
    obtain ⟨removed, hremove, hr⟩ := bind_eq_ok.1 hr
    obtain ⟨hfiled, hmembers, hgraphs, hnext⟩ := filed_removeNodes ids (h.removeNode hremove) hr
    obtain ⟨node, -, hgraphs', -, hnext', -⟩ := filing_removeNode hremove
    refine ⟨hfiled, ?_, ?_, hnext.trans hnext'⟩
    · rw [hmembers, members_removeNode hremove, List.filter_filter]
      simp only [List.mem_cons, not_or, Bool.decide_and, Bool.and_comm]
    · rw [hgraphs, hgraphs']
      exact map_where (g := Graph.stem) (f := (·.removeNode id)) (fun _ => rfl) (·.id = node.graph)
        script.graphs

/-- A graph can be dropped once its members are removed. -/
theorem Filed.dropped {script emptied : Script β} {id : GraphId} (h : script.Filed)
    (he : removeNodes ((script.graph? id).elim [] (·.nodes)) script = .ok emptied) :
    ({ emptied with graphs := emptied.graphs.filter (·.id ≠ id) } : Script β).Filed := by
  obtain ⟨hfiled, hmembers, -, -⟩ := filed_removeNodes _ h he
  have hgone : ∀ m ∈ emptied.members, m.graph ≠ id := by
    intro m hm heq
    rw [hmembers, List.mem_filter] at hm
    obtain ⟨hm, hout⟩ := hm
    obtain ⟨g, hg⟩ := Option.isSome_iff_exists.1 (containsGraph_iff.2 (heq ▸ h.housed m hm))
    have hgid : g.id = id := by simpa using List.find?_some hg
    rw [hg, Option.elim_some, h.listed g (List.mem_of_find?_eq_some hg)] at hout
    simp only [decide_eq_true_eq, List.mem_map, List.mem_filter] at hout
    exact hout ⟨m, ⟨hm, heq.trans hgid.symm⟩, rfl⟩
  refine ⟨hfiled.sorted, hfiled.below, fun m hm => ?_, fun g hg => ?_, hfiled.typed⟩
  · obtain ⟨g, hg, heq⟩ := List.mem_map.1 (hfiled.housed m hm)
    refine List.mem_map.2 ⟨g, List.mem_filter.2 ⟨hg, ?_⟩, heq⟩
    simpa [heq] using hgone m hm
  · exact hfiled.listed g (List.mem_filter.1 hg).1

/-- The files stay right when graphs are emptied and dropped, and what is left of the graphs lists
the same graphs as before. -/
theorem filed_removeGraphs : ∀ (ids : List GraphId) {script rest : Script β}, script.Filed →
    removeGraphs ids script = .ok rest → rest.Filed
      ∧ rest.graphs.map Graph.stem = (script.graphs.filter (·.id ∉ ids)).map Graph.stem
      ∧ rest.nextGraph = script.nextGraph
  | [], script, rest, h, hr => by
    rw [removeGraphs] at hr
    obtain rfl := Except.ok.inj hr
    have hall : script.graphs.filter (·.id ∉ []) = script.graphs :=
      List.filter_eq_self.2 fun _ _ => rfl
    exact ⟨h, by rw [hall], rfl⟩
  | id :: ids, script, rest, h, hr => by
    rw [removeGraphs] at hr
    obtain ⟨emptied, hempty, hr⟩ := bind_eq_ok.1 hr
    obtain ⟨-, -, hstems, hnext⟩ := filed_removeNodes _ h hempty
    let dropped : Script β := { emptied with graphs := emptied.graphs.filter (·.id ≠ id) }
    obtain ⟨hrest, hstems', hnext'⟩ := filed_removeGraphs ids (h.dropped hempty) hr
    refine ⟨hrest, ?_, hnext'.trans hnext⟩
    have hfilter : ∀ graphs : List Graph, (graphs.filter (·.id ∉ id :: ids)).map Graph.stem =
        (graphs.map Graph.stem).filter (·.id ∉ id :: ids) := by
      intro graphs
      rw [List.filter_map]
      rfl
    have hboth : dropped.graphs.filter (·.id ∉ ids) = emptied.graphs.filter (·.id ∉ id :: ids) := by
      rw [List.filter_filter]
      refine List.filter_congr fun g _ => ?_
      simp only [List.mem_cons, not_or, Bool.decide_and, Bool.and_comm]
    rw [hstems', hboth, hfilter, hstems, ← hfilter]

/-! ## The whole arena -/

/-- Graphs form a tree and nodes are filed, and an id that is handed out is new. -/
structure Arena (script : Script β) : Prop where
  nesting : Nesting script.graphs
  room : ∀ id ∈ script.graphs.map (·.id), id.raw < script.nextGraph
  filed : script.Filed

namespace Arena

variable {script script' : Script β}

theorem withRootName (name : String) : (withRootName name : Script β).Arena where
  nesting := Nesting.single name
  room := List.forall_mem_singleton.2 (Nat.zero_lt_one)
  filed := ⟨.nil, List.forall_mem_nil _, List.forall_mem_nil _, List.forall_mem_singleton.2 rfl,
    fun _ => rfl⟩

theorem of_stems (h : script.Arena) (hfiled : script'.Filed)
    (hs : script'.graphs.map Graph.stem = script.graphs.map Graph.stem)
    (hn : script'.nextGraph = script.nextGraph) : script'.Arena := by
  have hids : script'.graphs.map (·.id) = script.graphs.map (·.id) := by
    have hmap := congrArg (List.map Graph.id) hs
    rw [List.map_map, List.map_map] at hmap
    exact hmap
  refine ⟨h.nesting.of_stems hs, ?_, hfiled⟩
  rw [hids, hn]
  exact h.room

/-- An arena does not depend on links, values, names and behaviors. -/
theorem of_members (h : script.Arena) (hm : script'.members = script.members)
    (hg : script'.graphs = script.graphs) (hb : script'.byType = script.byType)
    (hng : script'.nextGraph = script.nextGraph) (hnn : script'.nextNode = script.nextNode) :
    script'.Arena :=
  h.of_stems (h.filed.of_same hm (by rw [hg]) hb hnn) (by rw [hg]) hng

theorem of_skeleton (h : script.Arena) (hs : script'.skeleton = script.skeleton) :
    script'.Arena := by
  have hm := members_of_skeleton hs
  simp only [skeleton, Script.mk.injEq] at hs
  obtain ⟨hg, -, hb, hng, hnn⟩ := hs
  exact h.of_members hm hg hb hng hnn

theorem of_unwired (h : script.Arena) (hu : script'.unwired = script.unwired) :
    script'.Arena := by
  have hm := members_of_unwired hu
  simp only [unwired, Script.mk.injEq] at hu
  obtain ⟨hg, -, hb, hng, hnn⟩ := hu
  exact h.of_members hm hg hb hng hnn

theorem addGraph (h : script.Arena) {parent : GraphId} {name : String}
    {added : GraphId × Script β} (ha : script.addGraph parent name = .ok added) :
    added.2.Arena := by
  unfold Script.addGraph at ha
  split at ha
  · rename_i hp
    rw [containsGraph_iff] at hp
    obtain rfl := Except.ok.inj ha
    have hnew : ∀ graph ∈ script.graphs, graph.id.raw < script.nextGraph :=
      fun graph hg => h.room _ (List.mem_map_of_mem hg)
    have hids : (script.modifyGraph parent (·.addSubGraph ⟨script.nextGraph⟩)).graphs.map (·.id) =
        script.graphs.map (·.id) :=
      map_where (g := Graph.id) (f := (·.addSubGraph ⟨script.nextGraph⟩)) (fun _ => rfl)
        (·.id = parent) script.graphs
    refine ⟨h.nesting.extended hp hnew name, ?_, ?_⟩
    · intro id hm
      rw [List.map_append, hids] at hm
      rcases List.mem_append.1 hm with hm | hm
      · exact Nat.lt_succ_of_lt (h.room id hm)
      · rw [List.mem_singleton.1 hm]
        exact Nat.lt_succ_self _
    · refine ⟨h.filed.sorted, h.filed.below, fun m hm => ?_, fun g hg => ?_, h.filed.typed⟩
      · rw [List.map_append, hids]
        exact List.mem_append_left _ (h.filed.housed m hm)
      · rcases List.mem_append.1 hg with hg | hg
        · obtain ⟨old, hold, rfl⟩ := List.mem_map.1 hg
          split <;> exact h.filed.listed old hold
        · rw [List.mem_singleton.1 hg]
          refine (List.map_eq_nil_iff.2 (List.filter_eq_nil_iff.2 fun m hm heq => ?_)).symm
          have hlt := h.room _ (h.filed.housed m hm)
          rw [decide_eq_true_eq] at heq
          rw [heq] at hlt
          exact Nat.lt_irrefl _ hlt
  · cases ha

theorem addNode (h : script.Arena) {graph : GraphId} {builder : NodeBuilder β}
    {added : NodeId × Script β} (ha : script.addNode graph builder = .ok added) :
    added.2.Arena := by
  obtain ⟨hg, rfl⟩ := addNode_eq_ok ha
  refine h.of_stems (h.filed.withNode (containsGraph_iff.1 hg) builder) ?_ rfl
  exact map_where (g := Graph.stem) (f := (·.addNode ⟨script.nextNode⟩)) (fun _ => rfl)
    (·.id = graph) script.graphs

theorem removeNode (h : script.Arena) {id : NodeId} {removed : Node β × Script β}
    (hr : script.removeNode id = .ok removed) : removed.2.Arena := by
  obtain ⟨node, -, hgraphs, -, hnext, -⟩ := filing_removeNode hr
  refine h.of_stems (h.filed.removeNode hr) ?_ hnext
  rw [hgraphs]
  exact map_where (g := Graph.stem) (f := (·.removeNode id)) (fun _ => rfl) (·.id = node.graph)
    script.graphs

theorem removeGraph (h : script.Arena) {id : GraphId} {rest : Script β}
    (hr : script.removeGraph id = .ok rest) : rest.Arena := by
  unfold Script.removeGraph at hr
  split at hr
  · cases hr
  rename_i hroot
  split at hr
  · cases hr
  rename_i graph hfind
  obtain ⟨emptied, hempty, hr⟩ := bind_eq_ok.1 hr
  have hg : graph ∈ script.graphs := List.mem_of_find?_eq_some hfind
  obtain rfl : graph.id = id := by simpa using List.find?_some hfind
  obtain ⟨hfiled, hstems, hnext⟩ := filed_removeGraphs _ h.filed hempty
  rcases hp : graph.parent with _ | parent
  · exact absurd ((h.nesting.orphan graph hg).1 hp) hroot
  rw [hp] at hr
  obtain rfl := Except.ok.inj hr
  have hout : ∀ b, b ∈ (script.subtree graph.id).reverse ↔ Within script.graphs graph.id b := by
    intro b
    rw [List.mem_reverse]
    exact mem_subtree h.nesting (List.mem_map_of_mem hg) b
  have hpruned := h.nesting.pruned hg hp hout
  have hmap : ∀ graphs : List Graph,
      (graphs.map fun g => if g.id = parent then g.removeSubGraph graph.id else g).map Graph.stem =
        (graphs.map Graph.stem).map fun g =>
          if g.id = parent then g.removeSubGraph graph.id else g := by
    intro graphs
    rw [List.map_map, List.map_map]
    refine List.map_congr_left fun g _ => ?_
    by_cases hid : g.id = parent
    · simp [hid, Graph.stem, Graph.removeSubGraph]
    · simp [hid, Graph.stem]
  have hsame : (emptied.modifyGraph parent (·.removeSubGraph graph.id)).graphs.map Graph.stem =
      ((script.graphs.filter (·.id ∉ (script.subtree graph.id).reverse)).map fun g =>
        if g.id = parent then g.removeSubGraph graph.id else g).map Graph.stem := by
    rw [hmap, ← hstems]
    exact hmap emptied.graphs
  refine ⟨hpruned.of_stems hsame, ?_, hfiled.of_same rfl ?_ rfl rfl⟩
  · intro id hid
    have hstem : id ∈ ((emptied.modifyGraph parent
        (·.removeSubGraph graph.id)).graphs.map Graph.stem).map (·.id) := by
      rw [List.map_map]
      exact hid
    rw [hsame, hmap, List.map_map] at hstem
    obtain ⟨g, hg, rfl⟩ := List.mem_map.1 hstem
    obtain ⟨old, hold, rfl⟩ := List.mem_map.1 hg
    have hlt := h.room old.id (List.mem_map_of_mem (List.mem_filter.1 hold).1)
    rw [modifyGraph, hnext]
    simp only [Function.comp]
    split <;> exact hlt
  · exact map_where (g := Graph.roll) (f := (·.removeSubGraph graph.id)) (fun _ => rfl)
      (·.id = parent) emptied.graphs

theorem edit (h : script.Arena) (change : Edit β) : (script.edit change).Arena := by
  generalize script.edit change = after, script.becomes_edit change = hb
  cases hb with
  | refused => exact h
  | addGraph done => exact h.addGraph done
  | renamed graph name =>
    have same {γ : Type} {view : Graph → γ} (hview : ∀ g, view { g with name := name } = view g) :
        (script.setGraphName graph name).graphs.map view = script.graphs.map view :=
      map_where hview (·.id = graph) script.graphs
    exact h.of_stems (h.filed.of_same rfl (same fun _ => rfl) rfl rfl) (same fun _ => rfl) rfl
  | removeGraph done => exact h.removeGraph done
  | addNode asked done => exact h.addNode done
  | removeNode done => exact h.removeNode done
  | rewired same => exact h.of_unwired same
  | bound done =>
    obtain ⟨-, rfl⟩ := connectValue_eq_ok.1 done
    exact h.of_members (script.members_modifyLink _ fun _ => rfl) rfl rfl rfl rfl
  | unbound ref cell =>
    have hm := script.members_disconnectValue ref cell
    unfold disconnectValue at hm ⊢
    split
    · exact h
    split <;> exact h.of_members (script.members_modifyLink _ fun _ => rfl) rfl rfl rfl rfl
  | written asked same => exact h.of_skeleton same

/-! ## What is found -/

theorem nodup_nodes (h : script.Arena) : (script.nodes.map (·.id)).Nodup := h.filed.nodup_nodes

theorem node?_eq (h : script.Arena) {node : Node β} (hn : node ∈ script.nodes) :
    script.node? node.id = some node :=
  h.filed.node?_eq hn

theorem filterMap_node? (h : script.Arena) : ∀ (nodes : List (Node β)),
    (∀ node ∈ nodes, node ∈ script.nodes) → (nodes.map (·.id)).filterMap script.node? = nodes
  | [], _ => rfl
  | node :: nodes, hn => by
    rw [List.forall_mem_cons] at hn
    rw [List.map_cons, List.filterMap_cons_some (h.node?_eq hn.1), h.filterMap_node? nodes hn.2]

theorem nodes_eq (h : script.Arena) {graph : Graph} (hg : graph ∈ script.graphs) :
    graph.nodes = (script.nodes.filter (·.graph = graph.id)).map (·.id) := by
  rw [h.filed.listed graph hg, members, List.filter_map, List.map_map]
  rfl

/-- The index of types finds what a search of all nodes finds. -/
theorem nodesOfType_eq (h : script.Arena) (type : TypeId) :
    script.nodesOfType type = script.nodes.filter (·.type = type) := by
  have hids : (Keyed.get? script.byType type).getD [] =
      (script.nodes.filter (·.type = type)).map (·.id) := by
    rw [h.filed.typed type, members, List.filter_map, List.map_map]
    rfl
  rw [nodesOfType, hids]
  exact h.filterMap_node? _ fun node hn => (List.mem_filter.1 hn).1

theorem sorted_nodes (h : script.Arena) : script.nodes.Pairwise (·.id.raw < ·.id.raw) := by
  have hm := h.filed.sorted
  rw [members, List.pairwise_map] at hm
  exact hm

theorem sorted_subGraphs (h : script.Arena) {graph : Graph} (hg : graph ∈ script.graphs) :
    graph.subGraphs.Pairwise (·.raw < ·.raw) := by
  rw [h.nesting.listed graph hg, List.pairwise_map]
  exact h.nesting.sorted.filter _

theorem sorted_members (h : script.Arena) {graph : Graph} (hg : graph ∈ script.graphs) :
    graph.nodes.Pairwise (·.raw < ·.raw) := by
  rw [h.nodes_eq hg, List.pairwise_map]
  exact h.sorted_nodes.filter _

/-- What is listed in increasing order is listed once. -/
theorem count_of_increasing {ι : Type} [DecidableEq ι] {raw : ι → Nat} {l : List ι}
    (hl : l.Pairwise fun a b => raw a < raw b) {a : ι} (ha : a ∈ l) : l.count a = 1 := by
  have hn : (l.map id).Nodup := nodup_of_sorted raw hl
  rw [List.map_id] at hn
  exact List.count_eq_one_of_mem hn ha

/-- A graph but the root is listed once, by its parent. -/
theorem listed_once (h : script.Arena) {graph : Graph} (hg : graph ∈ script.graphs)
    (hroot : graph.id ≠ rootGraph) : ∃ parent ∈ script.graphs,
      graph.parent = some parent.id ∧ parent.id.raw < graph.id.raw
        ∧ parent.subGraphs.count graph.id = 1
        ∧ ∀ other ∈ script.graphs, graph.id ∈ other.subGraphs → other = parent := by
  have hn := h.nesting
  rcases hp : graph.parent with _ | id
  · exact absurd ((hn.orphan graph hg).1 hp) hroot
  obtain ⟨hlive, hlt⟩ := hn.older graph hg id hp
  obtain ⟨parent, hparent, rfl⟩ := List.mem_map.1 hlive
  refine ⟨parent, hparent, rfl, hlt, ?_, fun other ho hm => ?_⟩
  · refine count_of_increasing (h.sorted_subGraphs hparent) ?_
    exact (hn.mem_subGraphs hparent).2 ⟨graph, hg, rfl, hp⟩
  · obtain ⟨inner, hi, hid, hp'⟩ := (hn.mem_subGraphs ho).1 hm
    obtain rfl := hn.eq_of_id hi hg hid
    exact hn.eq_of_id ho hparent (Option.some.inj (hp'.symm.trans hp))

theorem housed_once (h : script.Arena) {node : Node β} (hnode : node ∈ script.nodes) :
    ∃ home ∈ script.graphs, home.id = node.graph ∧ home.nodes.count node.id = 1
      ∧ ∀ other ∈ script.graphs, node.id ∈ other.nodes → other = home := by
  obtain ⟨home, hhome, hid⟩ := List.mem_map.1 (h.filed.housed _ (List.mem_map_of_mem hnode))
  refine ⟨home, hhome, hid, ?_, fun other ho hm => ?_⟩
  · refine count_of_increasing (h.sorted_members hhome) ?_
    rw [h.nodes_eq hhome]
    exact List.mem_map_of_mem (List.mem_filter.2 ⟨hnode, decide_eq_true hid.symm⟩)
  · rw [h.nodes_eq ho] at hm
    obtain ⟨inner, hi, hid'⟩ := List.mem_map.1 hm
    obtain ⟨hi, hgraph⟩ := List.mem_filter.1 hi
    obtain rfl := eq_of_key h.nodup_nodes hi hnode hid'
    rw [decide_eq_true_eq] at hgraph
    exact h.nesting.eq_of_id ho hhome (hgraph.symm.trans hid.symm)

end Arena

variable [Behavior β] {placed : NodeBuilder β → Prop} {script : Script β}

theorem Reachable.arena (h : script.Reachable placed) : script.Arena :=
  h.induction Arena.withRootName (fun _ change _ hs => hs.edit change)
    fun _ _ _ _ _ _ hu hs => hs.of_skeleton (skeleton_lasting.update hu)

/-- In every script that a host can come by, the graphs form a tree: each but the root is listed
exactly once, by its parent, which is older, and all lie within the root. A node is listed exactly
once, by its graph. Ids are in order of creation wherever they are listed, and an id that is handed
out is new. The index of types finds what a search of all nodes finds. -/
theorem Reachable.filing (h : script.Reachable placed) :
    (∀ graph ∈ script.graphs, graph.id ≠ rootGraph → ∃ parent ∈ script.graphs,
        graph.parent = some parent.id ∧ parent.id.raw < graph.id.raw
          ∧ parent.subGraphs.count graph.id = 1
          ∧ ∀ other ∈ script.graphs, graph.id ∈ other.subGraphs → other = parent)
      ∧ (∀ graph ∈ script.graphs, Within script.graphs rootGraph graph.id)
      ∧ (∀ node ∈ script.nodes, ∃ home ∈ script.graphs, home.id = node.graph
          ∧ home.nodes.count node.id = 1
          ∧ ∀ other ∈ script.graphs, node.id ∈ other.nodes → other = home)
      ∧ (∀ graph ∈ script.graphs,
          graph.subGraphs = (script.graphs.filter (·.parent = some graph.id)).map (·.id)
            ∧ graph.nodes = (script.nodes.filter (·.graph = graph.id)).map (·.id)
            ∧ graph.subGraphs.Pairwise (·.raw < ·.raw) ∧ graph.nodes.Pairwise (·.raw < ·.raw))
      ∧ script.graphs.Pairwise (·.id.raw < ·.id.raw) ∧ script.nodes.Pairwise (·.id.raw < ·.id.raw)
      ∧ (∀ graph ∈ script.graphs, graph.id.raw < script.nextGraph)
      ∧ (∀ node ∈ script.nodes, node.id.raw < script.nextNode)
      ∧ ∀ type, script.nodesOfType type = script.nodes.filter (·.type = type) := by
  have ha := h.arena
  have hn := ha.nesting
  exact ⟨fun graph hg hroot => ha.listed_once hg hroot, fun graph hg => hn.within_root hg,
    fun node hnode => ha.housed_once hnode,
    fun graph hg =>
      ⟨hn.listed graph hg, ha.nodes_eq hg, ha.sorted_subGraphs hg, ha.sorted_members hg⟩,
    hn.sorted, ha.sorted_nodes, fun graph hg => ha.room _ (List.mem_map_of_mem hg),
    fun node hnode => ha.filed.below _ (List.mem_map_of_mem hnode), ha.nodesOfType_eq⟩

/-- How to come by a script that lost a graph with another one in it. -/
def clearing : List (Edit Standard) :=
  [.addGraph rootGraph "left", .addGraph ⟨1⟩ "inner", .addGraph rootGraph "right",
    .addGraph ⟨3⟩ "deep", .addNode ⟨1⟩ Standard.startNode, .addNode ⟨4⟩ Standard.startNode,
    .addNode ⟨2⟩ Standard.branchNode, .addNode rootGraph Standard.startNode, .removeGraph ⟨1⟩]

/-- A script of three graphs, one in the other, and two events. -/
def glade : Script Standard := clearing.foldl Script.edit (withRootName "root")

/-- The graphs that are left keep their ids and their places. -/
theorem filing_of_glade : glade.graphs.map (·.id) = [⟨0⟩, ⟨3⟩, ⟨4⟩]
    ∧ (∀ graph ∈ glade.graphs, Within glade.graphs rootGraph graph.id)
    ∧ glade.nodesOfType startEventType = glade.nodes.filter (·.type = startEventType) := by
  have hr : glade.Reachable fun _ => True := by
    refine .edits (.fresh "root") fun change _ => ?_
    cases change <;> trivial
  obtain ⟨-, hwithin, -, -, -, -, -, -, htypes⟩ := Reachable.filing hr
  exact ⟨by decide +kernel, hwithin, htypes startEventType⟩

end Script

end FlowScript
