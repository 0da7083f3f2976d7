import FlowScript.Proofs.Numbering

/-!
# The order of a definition

A definition tells a script graph by graph, each graph before the graphs nested in it. So its nodes
are those of the script regrouped (`byGraph`): all are there once, in order of creation within each
graph, but not from one graph to another.
-/

namespace FlowScript

variable {β : Type}

namespace Nesting

variable {graphs : List Graph} (h : Nesting graphs)

include h

/-- Of two graphs that one graph lies within, one lies within the other. -/
theorem comparable {a b c : GraphId} (ha : Within graphs a c) (hb : Within graphs b c) :
    Within graphs a b ∨ Within graphs b a := by
  induction ha with
  | refl => exact .inr hb
  | @listed graph inner within live lists ih =>
    obtain ⟨g, hg, rfl, hp⟩ := (h.mem_subGraphs live).1 lists
    rcases (h.within_iff hg hp).1 hb with hb | rfl
    · exact ih hb
    · exact .inl (.listed within live lists)

end Nesting

namespace Script

variable {script : Script β}

/-- In a subtree no graph comes before a graph that it lies within. -/
theorem ordered_subtree (h : Nesting script.graphs) {graph : Graph} (hg : graph ∈ script.graphs) :
    (script.subtree graph.id).Pairwise fun a b => ¬ Within script.graphs b a := by
  refine h.bottom_up
    (P := fun id => (script.subtree id).Pairwise fun a b => ¬ Within script.graphs b a)
    (fun outer ho ih => ?_) graph hg
  have hlive : ∀ sub ∈ outer.subGraphs, sub ∈ script.graphs.map (·.id) := fun sub hs =>
    h.live_of_within (List.mem_map_of_mem ho) (.listed .refl ho hs)
  rw [subtree_eq h ho, List.pairwise_cons]
  constructor
  · intro b hb hw
    obtain ⟨sub, hs, hsub⟩ := List.mem_flatMap.1 hb
    have hle := h.le_of_within (((mem_subtree h (hlive sub hs) _).1 hsub).trans hw)
    exact absurd (h.lt_of_listed ho hs) (Nat.not_lt_of_le hle)
  · refine List.pairwise_flatMap.2 ⟨ih, ?_⟩
    -- A graph within two that are listed side by side would put one of them within the other.
    refine List.Pairwise.imp_of_mem (fun {a b} ha hb hapart x hx y hy hw => ?_) (h.siblings ho)
    rcases h.comparable ((mem_subtree h (hlive a ha) x).1 hx)
      (((mem_subtree h (hlive b hb) y).1 hy).trans hw) with hab | hba
    · exact hapart.1 hab
    · exact hapart.2 hba

theorem nodup_subtree (h : Nesting script.graphs) {graph : Graph} (hg : graph ∈ script.graphs) :
    (script.subtree graph.id).Nodup := by
  refine (ordered_subtree h hg).imp fun hnot heq => ?_
  subst heq
  exact hnot .refl

/-- The nodes graph by graph, those of a graph before those of the graphs nested in it. -/
def byGraph (script : Script β) : List (Node β) :=
  (script.subtree rootGraph).flatMap fun id => script.nodes.filter (·.graph = id)

/-- A list regrouped by a key is a permutation of the list. -/
theorem perm_regrouped {α κ : Type} [DecidableEq κ] {key : α → κ} {l : List α} {ids : List κ}
    (hl : l.Nodup) (hn : ids.Nodup) (hids : ∀ a ∈ l, key a ∈ ids) :
    (ids.flatMap fun id => l.filter (key · = id)).Perm l := by
  refine (List.perm_ext_iff_of_nodup ?_ hl).2 fun a => ?_
  · refine List.nodup_flatMap.2 ⟨fun id _ => hl.filter _, hn.imp fun hne a ha hb => hne ?_⟩
    rw [← of_decide_eq_true (List.mem_filter.1 ha).2, ← of_decide_eq_true (List.mem_filter.1 hb).2]
  · rw [List.mem_flatMap]
    constructor
    · rintro ⟨id, -, ha⟩
      exact (List.mem_filter.1 ha).1
    · intro ha
      exact ⟨key a, hids a ha, List.mem_filter.2 ⟨ha, decide_eq_true rfl⟩⟩

namespace Arena

variable (h : script.Arena)

include h

theorem root_mem : ∃ root ∈ script.graphs, root.id = rootGraph :=
  List.mem_map.1 h.nesting.root

theorem nodup_subtree_root : (script.subtree rootGraph).Nodup := by
  obtain ⟨root, hroot, hid⟩ := h.root_mem
  exact hid ▸ nodup_subtree h.nesting hroot

theorem mem_subtree_root {id : GraphId} :
    id ∈ script.subtree rootGraph ↔ id ∈ script.graphs.map (·.id) := by
  rw [mem_subtree h.nesting h.nesting.root]
  refine ⟨h.nesting.live_of_within h.nesting.root, fun hid => ?_⟩
  obtain ⟨graph, hg, rfl⟩ := List.mem_map.1 hid
  exact h.nesting.within_root hg

theorem perm_byGraph : script.byGraph.Perm script.nodes := by
  refine perm_regrouped (h.nodup_nodes.of_map _) h.nodup_subtree_root fun node hn => ?_
  exact h.mem_subtree_root.2 (h.filed.housed _ (List.mem_map_of_mem hn))

theorem nodup_byGraph : (script.byGraph.map (·.id)).Nodup :=
  (h.perm_byGraph.map _).nodup_iff.2 h.nodup_nodes

theorem members_eq {graph : Graph} (hg : graph ∈ script.graphs) :
    graph.nodes.filterMap script.node? = script.nodes.filter (·.graph = graph.id) := by
  rw [h.nodes_eq hg]
  exact h.filterMap_node? _ fun node hn => (List.mem_filter.1 hn).1

end Arena

end Script

/-! ## What a definition tells -/

/-- A graph without the graphs nested in it. -/
def GraphDef.own (graph : GraphDef) : GraphDef := { graph with subGraphs := [] }

theorem GraphDef.preorderAll_eq : ∀ trees : List GraphDef,
    preorderAll trees = trees.flatMap preorder
  | [] => by rw [preorderAll, List.flatMap_nil]
  | tree :: rest => by rw [preorderAll, preorderAll_eq rest, List.flatMap_cons]

namespace Script

variable {script : Script β}

/-- Describes a graph without the graphs nested in it. -/
def tell (script : Script β) (names : Names) (graph : Graph) : GraphDef :=
  let members := script.nodes.filter (·.graph = graph.id)
  { name := graph.name
    nodes := members.map (nodeDef names)
    links := members.flatMap (script.linkDefs names)
    bindings := members.flatMap (script.bindingDefs names) }

/-- Describes a graph with the graphs nested in it. -/
def describe (script : Script β) (names : Names) (id : GraphId) : GraphDef :=
  script.graphDef names script.graphs.length id

theorem graphDef_succ (h : script.Arena) (names : Names) {graph : Graph}
    (hg : graph ∈ script.graphs) (fuel : Nat) : script.graphDef names (fuel + 1) graph.id =
      { script.tell names graph with
        subGraphs := graph.subGraphs.map (script.graphDef names fuel) } := by
  have hfind : script.graph? graph.id = some graph := h.nesting.find?_eq hg
  rw [graphDef, hfind, tell]
  simp only [h.members_eq hg]

/-- A bound on the depth does not matter if it leaves room for all graphs. -/
theorem graphDef_eq (h : script.Arena) (names : Names) {graph : Graph}
    (hg : graph ∈ script.graphs) : ∀ fuel, Nesting.AtMost script.graphs fuel graph.id →
      script.graphDef names fuel graph.id = script.describe names graph.id := by
  have hall : ∀ fuel fuel', Nesting.AtMost script.graphs fuel graph.id →
      Nesting.AtMost script.graphs fuel' graph.id →
        script.graphDef names fuel graph.id = script.graphDef names fuel' graph.id := by
    refine h.nesting.bottom_up (P := fun id => ∀ fuel fuel', Nesting.AtMost script.graphs fuel id →
      Nesting.AtMost script.graphs fuel' id →
        script.graphDef names fuel id = script.graphDef names fuel' id)
      (fun outer ho ih fuel fuel' hf hf' => ?_) graph hg
    obtain ⟨fuel, rfl⟩ := Nat.exists_eq_add_one.2 hf.pos
    obtain ⟨fuel', rfl⟩ := Nat.exists_eq_add_one.2 hf'.pos
    have hsubs : outer.subGraphs.map (script.graphDef names fuel) =
        outer.subGraphs.map (script.graphDef names fuel') := List.map_congr_left fun sub hs =>
      ih sub hs fuel fuel' (hf.sub h.nesting ho hs) (hf'.sub h.nesting ho hs)
    rw [graphDef_succ h names ho, graphDef_succ h names ho, hsubs]
  exact fun fuel hf => hall fuel _ hf (h.nesting.atMost (List.mem_map_of_mem hg))

theorem describe_eq (h : script.Arena) (names : Names) {graph : Graph}
    (hg : graph ∈ script.graphs) : script.describe names graph.id =
      { script.tell names graph with
        subGraphs := graph.subGraphs.map (script.describe names) } := by
  have hmost := h.nesting.atMost (List.mem_map_of_mem hg)
  have hmore : Nesting.AtMost script.graphs (script.graphs.length + 1) graph.id :=
    fun ids hn hw => Nat.le_succ_of_le (hmost ids hn hw)
  rw [← graphDef_eq h names hg _ hmore, graphDef_succ h names hg]
  rfl

theorem preorder_describe (h : script.Arena) (names : Names) {graph : Graph}
    (hg : graph ∈ script.graphs) : (script.describe names graph.id).preorder =
      (script.subtree graph.id).map (script.describe names) := by
  refine h.nesting.bottom_up (P := fun id => (script.describe names id).preorder =
    (script.subtree id).map (script.describe names)) (fun outer ho ih => ?_) graph hg
  rw [subtree_eq h.nesting ho, List.map_cons, describe_eq h names ho, GraphDef.preorder,
    GraphDef.preorderAll_eq, List.flatMap_map, List.map_flatMap]
  congr 1
  exact List.flatMap_congr ih

variable (h : script.Arena) (keys : Keys)

include h

theorem definition_eq :
    script.definition keys = script.describe (.ofScript script keys) rootGraph := by
  obtain ⟨root, hroot, hid⟩ := h.root_mem
  rw [definition, ← hid]
  refine graphDef_eq h _ hroot _ fun ids hn hw => Nat.le_succ_of_le ?_
  exact h.nesting.atMost (List.mem_map_of_mem hroot) ids hn hw

/-- A definition of a script describes its graphs in the order of the tree. -/
theorem preorder_definition : (script.definition keys).preorder =
    (script.subtree rootGraph).map (script.describe (.ofScript script keys)) := by
  obtain ⟨root, hroot, hid⟩ := h.root_mem
  rw [definition_eq h, ← hid]
  exact preorder_describe h _ hroot

theorem own_definition : (script.definition keys).preorder.map .own =
    (script.subtree rootGraph).map fun id => (script.graph? id).elim { name := "" }
      (script.tell (.ofScript script keys)) := by
  rw [preorder_definition h, List.map_map]
  refine List.map_congr_left fun id hid => ?_
  obtain ⟨graph, hg, rfl⟩ := List.mem_map.1 (h.mem_subtree_root.1 hid)
  have hfind : script.graph? graph.id = some graph := h.nesting.find?_eq hg
  rw [hfind, Option.elim_some, Function.comp, describe_eq h _ hg]
  rfl

/-- What a definition tells of each graph, node by node, it tells of the nodes graph by graph. -/
theorem flatMap_definition {γ : Type} {part : GraphDef → List γ} {f : Node β → List γ}
    (own : ∀ graph, part graph.own = part graph)
    (tells : ∀ graph, part (script.tell (.ofScript script keys) graph) =
      (script.nodes.filter (·.graph = graph.id)).flatMap f) :
    (script.definition keys).preorder.flatMap part = script.byGraph.flatMap f := by
  have hown : (script.definition keys).preorder.flatMap part =
      ((script.definition keys).preorder.map .own).flatMap part := by
    rw [List.flatMap_map]
    exact List.flatMap_congr fun graph _ => (own graph).symm
  rw [hown, own_definition h, List.flatMap_map, byGraph, List.flatMap_assoc]
  refine List.flatMap_congr fun id hid => ?_
  obtain ⟨graph, hg, rfl⟩ := List.mem_map.1 (h.mem_subtree_root.1 hid)
  have hfind : script.graph? graph.id = some graph := h.nesting.find?_eq hg
  rw [hfind, Option.elim_some, tells]

theorem entries_definition : (script.definition keys).entries =
    script.byGraph.map (nodeDef (.ofScript script keys)) := by
  rw [List.map_eq_flatMap]
  refine flatMap_definition h keys (fun _ => rfl) fun graph => ?_
  rw [tell, List.map_eq_flatMap]

theorem links_definition : (script.definition keys).preorder.flatMap (·.links) =
    script.byGraph.flatMap (script.linkDefs (.ofScript script keys)) :=
  flatMap_definition h keys (fun _ => rfl) fun _ => rfl

theorem bindings_definition : (script.definition keys).preorder.flatMap (·.bindings) =
    script.byGraph.flatMap (script.bindingDefs (.ofScript script keys)) :=
  flatMap_definition h keys (fun _ => rfl) fun _ => rfl

/-! ## New numbers -/

omit h in
/-- The id that a graph gets when the script is built again. -/
def place (script : Script β) (id : GraphId) : GraphId :=
  ⟨(script.subtree rootGraph).idxOf id⟩

omit h in
/-- The id that a node gets when the script is built again. -/
def number (script : Script β) (id : NodeId) : NodeId := ⟨(script.byGraph.map (·.id)).idxOf id⟩

omit h in
theorem Arena.place_inj (h : script.Arena) {a b : GraphId} (ha : a ∈ script.graphs.map (·.id)) :
    script.place a = script.place b ↔ a = b := by
  refine ⟨fun heq => ?_, congrArg _⟩
  exact (List.idxOf_inj (h.mem_subtree_root.2 ha)).1 (GraphId.mk.inj heq)

omit h in
theorem Arena.number_inj (h : script.Arena) {a b : NodeId} (ha : a ∈ script.nodes.map (·.id)) :
    script.number a = script.number b ↔ a = b := by
  refine ⟨fun heq => ?_, congrArg _⟩
  exact (List.idxOf_inj ((h.perm_byGraph.map _).mem_iff.2 ha)).1 (NodeId.mk.inj heq)

omit h in
theorem zipIdx_eq_map {α κ : Type} [DecidableEq κ] {key : α → κ} : ∀ {l : List α},
    (l.map key).Nodup → ∀ k, l.zipIdx k = l.map fun a => (a, k + (l.map key).idxOf (key a))
  | [], _, _ => rfl
  | a :: l, hn, k => by
    rw [List.map_cons, List.nodup_cons] at hn
    rw [List.zipIdx_cons, List.map_cons, List.map_cons, zipIdx_eq_map hn.2, List.idxOf_cons_self,
      Nat.add_zero]
    congr 1
    refine List.map_congr_left fun b hb => ?_
    have hne : key a ≠ key b := fun heq => hn.1 (heq ▸ List.mem_map_of_mem hb)
    rw [List.idxOf_cons_ne _ hne, Nat.add_succ, Nat.succ_add]
    rfl

theorem homes_definition : homes (script.definition keys).preorder 0 =
    script.byGraph.map fun node =>
      (script.place node.graph, nodeDef (.ofScript script keys) node) := by
  have hown : homes (script.definition keys).preorder 0 =
      homes ((script.definition keys).preorder.map .own) 0 := by
    rw [homes, homes, List.zipIdx_map, List.flatMap_map]
    rfl
  have hindex := @zipIdx_eq_map GraphId GraphId _ (fun id => id) (script.subtree rootGraph)
    (by rw [List.map_id']; exact h.nodup_subtree_root) 0
  rw [List.map_id'] at hindex
  rw [hown, own_definition h, homes, List.zipIdx_map, List.flatMap_map, hindex, List.flatMap_map,
    byGraph, List.map_flatMap]
  refine List.flatMap_congr fun id hid => ?_
  obtain ⟨graph, hg, rfl⟩ := List.mem_map.1 (h.mem_subtree_root.1 hid)
  have hfind : script.graph? graph.id = some graph := h.nesting.find?_eq hg
  simp only [Prod.map, hfind, Option.elim_some, tell, List.map_map, Nat.zero_add]
  refine List.map_congr_left fun node hn => ?_
  rw [of_decide_eq_true (List.mem_filter.1 hn).2]
  rfl

theorem created_definition (registry : Registry β) : (script.definition keys).created registry =
    script.byGraph.filterMap fun node =>
      (registry.create node.type (nodeDef (.ofScript script keys) node).properties).toOption.map
        (·.build (script.number node.id) (script.place node.graph)) := by
  rw [GraphDef.created, homes_definition h, Registry.nodes, List.zipIdx_map, List.filterMap_map,
    zipIdx_eq_map h.nodup_byGraph, List.filterMap_map]
  refine List.filterMap_congr fun node _ => ?_
  simp only [Function.comp, Prod.map, Nat.zero_add]
  rfl

end Script

end FlowScript
