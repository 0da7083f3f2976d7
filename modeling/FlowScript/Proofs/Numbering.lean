import FlowScript.Proofs.Faults

/-!
# Numbers of graphs and nodes

Placing a definition goes through its tree, a graph before the graphs nested in it, and numbers
graphs and nodes on the way. So the graphs of the script mirror the tree (`GraphDef.graphs`), its
nodes are those of the tree in order, and each has its key (`placed_answers`).
-/

namespace FlowScript

variable {β : Type}

/-! ## What is numbered -/

/-- So many ids of nodes, from the given one on. -/
def nodeIds (node count : Nat) : List NodeId := (List.range' node count).map NodeId.mk

/-- The keys of nodes that are numbered from the given one on. -/
def labels (homes : List (GraphId × NodeDef)) (node : Nat) : Keys :=
  (homes.zipIdx node).map fun e => (e.1.2.key, ⟨e.2⟩)

namespace GraphDef

/-- The ids of trees of graphs that are numbered from the given one on, one tree after another. -/
def roots : List GraphDef → Nat → List GraphId
  | [], _ => []
  | tree :: rest, graph => ⟨graph⟩ :: roots rest (graph + tree.preorder.length)

mutual

/-- The graphs that a tree becomes, if graphs and nodes are numbered from the given ones on. -/
def graphs : GraphDef → Option GraphId → Nat → Nat → List Graph
  | ⟨name, nodes, _, _, subs⟩, parent, graph, node =>
    { id := ⟨graph⟩
      name := name
      parent := parent
      subGraphs := roots subs (graph + 1)
      nodes := nodeIds node nodes.length } ::
        graphsAll subs ⟨graph⟩ (graph + 1) (node + nodes.length)

/-- The graphs that several trees nested in one graph become. -/
def graphsAll : List GraphDef → GraphId → Nat → Nat → List Graph
  | [], _, _, _ => []
  | tree :: rest, parent, graph, node =>
    graphs tree (some parent) graph node ++
      graphsAll rest parent (graph + tree.preorder.length) (node + tree.entries.length)

end

/-- The defined nodes of several trees. -/
def entriesAll (trees : List GraphDef) : List NodeDef := (preorderAll trees).flatMap (·.nodes)

theorem entries_eq (name : String) (nodes : List NodeDef) (links : List LinkDef)
    (bindings : List BindingDef) (subs : List GraphDef) :
    (GraphDef.mk name nodes links bindings subs).entries = nodes ++ entriesAll subs := by
  rw [entries, preorder, List.flatMap_cons]
  rfl

theorem entriesAll_cons (tree : GraphDef) (rest : List GraphDef) :
    entriesAll (tree :: rest) = tree.entries ++ entriesAll rest := by
  rw [entriesAll, preorderAll, List.flatMap_append]
  rfl

mutual

theorem length_graphs : ∀ (tree : GraphDef) (parent : Option GraphId) (graph node : Nat),
    (graphs tree parent graph node).length = tree.preorder.length
  | ⟨name, nodes, links, bindings, subs⟩, parent, graph, node => by
    rw [graphs, preorder, List.length_cons, List.length_cons, length_graphsAll]

theorem length_graphsAll : ∀ (trees : List GraphDef) (parent : GraphId) (graph node : Nat),
    (graphsAll trees parent graph node).length = (preorderAll trees).length
  | [], parent, graph, node => by rw [graphsAll, preorderAll]; rfl
  | tree :: rest, parent, graph, node => by
    rw [graphsAll, preorderAll, List.length_append, List.length_append, length_graphs,
      length_graphsAll]

end

mutual

/-- The graphs of a tree are numbered in order. -/
theorem ids_graphs : ∀ (tree : GraphDef) (parent : Option GraphId) (graph node : Nat),
    (graphs tree parent graph node).map (·.id.raw) = List.range' graph tree.preorder.length
  | ⟨name, nodes, links, bindings, subs⟩, parent, graph, node => by
    rw [graphs, preorder, List.map_cons, List.length_cons, List.range'_succ, ids_graphsAll]

theorem ids_graphsAll : ∀ (trees : List GraphDef) (parent : GraphId) (graph node : Nat),
    (graphsAll trees parent graph node).map (·.id.raw) =
      List.range' graph (preorderAll trees).length
  | [], parent, graph, node => by rw [graphsAll, preorderAll]; rfl
  | tree :: rest, parent, graph, node => by
    rw [graphsAll, preorderAll, List.map_append, List.length_append, ids_graphs, ids_graphsAll,
      List.range'_append_1]

end

end GraphDef

theorem homes_cons (graph : GraphDef) (graphs : List GraphDef) (k : Nat) :
    homes (graph :: graphs) k = graph.nodes.map (⟨k⟩, ·) ++ homes graphs (k + 1) := by
  rw [homes, List.zipIdx_cons, List.flatMap_cons]
  rfl

theorem homes_append (graphs graphs' : List GraphDef) (k : Nat) :
    homes (graphs ++ graphs') k = homes graphs k ++ homes graphs' (k + graphs.length) := by
  rw [homes, List.zipIdx_append, List.flatMap_append]
  rfl

theorem nodes_homes : ∀ (graphs : List GraphDef) (k : Nat),
    (homes graphs k).map (·.2) = graphs.flatMap (·.nodes)
  | [], _ => rfl
  | graph :: graphs, k => by
    rw [homes_cons, List.map_append, nodes_homes graphs, List.flatMap_cons, List.map_map]
    congr 1
    exact List.map_id _

theorem length_homes (graphs : List GraphDef) (k : Nat) :
    (homes graphs k).length = (graphs.flatMap (·.nodes)).length := by
  rw [← nodes_homes graphs k, List.length_map]

theorem labels_append (homes homes' : List (GraphId × NodeDef)) (node : Nat) :
    labels (homes ++ homes') node = labels homes node ++ labels homes' (node + homes.length) := by
  rw [labels, List.zipIdx_append, List.map_append]
  rfl

theorem keys_labels (homes : List (GraphId × NodeDef)) (node : Nat) :
    Keyed.keys (labels homes node) = homes.map (·.2.key) := by
  rw [Keyed.keys, labels, List.map_map]
  conv_rhs => rw [← List.zipIdx_map_fst node homes, List.map_map]
  rfl

theorem Registry.nodes_append (registry : Registry β) (homes homes' : List (GraphId × NodeDef))
    (node : Nat) : registry.nodes (homes ++ homes') node =
      registry.nodes homes node ++ registry.nodes homes' (node + homes.length) := by
  rw [nodes, List.zipIdx_append, List.filterMap_append]
  rfl

theorem nodeIds_append (node count count' : Nat) :
    nodeIds node count ++ nodeIds (node + count) count' = nodeIds node (count + count') := by
  rw [nodeIds, nodeIds, nodeIds, ← List.map_append, List.range'_append_1]

namespace GraphDef

theorem homes_preorder (tree : GraphDef) (k : Nat) : homes tree.preorder k =
    tree.nodes.map (⟨k⟩, ·) ++ homes (preorderAll tree.subGraphs) (k + 1) := by
  obtain ⟨name, nodes, links, bindings, subs⟩ := tree
  rw [preorder, homes_cons]

theorem graphs_eq (tree : GraphDef) (parent : Option GraphId) (graph node : Nat) :
    graphs tree parent graph node =
      { id := ⟨graph⟩
        name := tree.name
        parent := parent
        subGraphs := roots tree.subGraphs (graph + 1)
        nodes := nodeIds node tree.nodes.length } ::
          graphsAll tree.subGraphs ⟨graph⟩ (graph + 1) (node + tree.nodes.length) := by
  obtain ⟨name, nodes, links, bindings, subs⟩ := tree
  rw [graphs]

end GraphDef

/-! ## Filling a graph -/

/-- The graph with more members and nested graphs. -/
def Graph.fill (graph : Graph) (members : List NodeId) (subs : List GraphId) : Graph :=
  { graph with nodes := graph.nodes ++ members, subGraphs := graph.subGraphs ++ subs }

/-- Fills the graph of an id. -/
def fillAt (id : GraphId) (members : List NodeId) (subs : List GraphId) (graph : Graph) : Graph :=
  if graph.id = id then graph.fill members subs else graph

theorem map_fillAt {id : GraphId} {members : List NodeId} {subs : List GraphId}
    {graphs : List Graph} (h : ∀ g ∈ graphs, g.id ≠ id) :
    graphs.map (fillAt id members subs) = graphs := by
  have hsame : graphs.map (fillAt id members subs) = graphs.map fun g => g :=
    List.map_congr_left fun g hg => if_neg (h g hg)
  rw [hsame, List.map_id']

namespace Loaded

/-- What is there after a graph has been filled: members of its own and nested graphs with all that
is in them. -/
structure Filled (registry : Registry β) (before : Loaded β) (graph : GraphId)
    (members : List NodeId) (subs : List GraphId) (homes : List (GraphId × NodeDef))
    (nested : List Graph) (after : Loaded β) : Prop where
  keys : after.keys = before.keys ++ labels homes before.script.nextNode
  nodes : after.script.nodes = before.script.nodes ++ registry.nodes homes before.script.nextNode
  graphs : after.script.graphs = before.script.graphs.map (fillAt graph members subs) ++ nested
  nextNode : after.script.nextNode = before.script.nextNode + homes.length
  nextGraph : after.script.nextGraph = before.script.nextGraph + nested.length
  accepted : ∀ home ∈ homes, registry.Accepts home.2
  arena : before.script.Arena → after.script.Arena

namespace Filled

variable {registry : Registry β} {before between after : Loaded β} {graph : GraphId}
  {members members' : List NodeId} {subs subs' : List GraphId}
  {homes homes' : List (GraphId × NodeDef)} {nested nested' : List Graph}

theorem refl (registry : Registry β) (loaded : Loaded β) (graph : GraphId) :
    Filled registry loaded graph [] [] [] [] loaded where
  keys := (List.append_nil _).symm
  nodes := (List.append_nil _).symm
  graphs := by
    rw [List.append_nil]
    refine (List.map_id'' (fun g => ?_) _).symm
    simp only [fillAt, Graph.fill, List.append_nil, ite_self]
  nextNode := rfl
  nextGraph := rfl
  accepted := List.forall_mem_nil _
  arena := id

theorem trans (h : Filled registry before graph members subs homes nested between)
    (h' : Filled registry between graph members' subs' homes' nested' after)
    (hn : ∀ g ∈ nested, g.id ≠ graph) :
    Filled registry before graph (members ++ members') (subs ++ subs') (homes ++ homes')
      (nested ++ nested') after where
  keys := by rw [h'.keys, h.keys, labels_append, h.nextNode, List.append_assoc]
  nodes := by rw [h'.nodes, h.nodes, Registry.nodes_append, h.nextNode, List.append_assoc]
  graphs := by
    have htwice : ∀ g, fillAt graph members' subs' (fillAt graph members subs g) =
        fillAt graph (members ++ members') (subs ++ subs') g := by
      intro g
      by_cases hg : g.id = graph
      · simp only [fillAt, Graph.fill, hg, if_true, List.append_assoc]
      · simp only [fillAt, hg, if_false]
    rw [h'.graphs, h.graphs, List.map_append, List.map_map, map_fillAt hn, List.append_assoc]
    congr 1
    exact List.map_congr_left fun g _ => htwice g
  nextNode := by rw [h'.nextNode, h.nextNode, List.length_append, Nat.add_assoc]
  nextGraph := by rw [h'.nextGraph, h.nextGraph, List.length_append, Nat.add_assoc]
  accepted := List.forall_mem_append.2 ⟨h.accepted, h'.accepted⟩
  arena := h'.arena ∘ h.arena

theorem withNode {loaded : Loaded β} {graph : GraphId} {node : NodeDef} {builder : NodeBuilder β}
    (hg : loaded.script.containsGraph graph = true)
    (hout : node.key ∉ Keyed.keys loaded.keys)
    (hc : registry.create node.type node.properties = .ok builder) :
    Filled registry loaded graph [⟨loaded.script.nextNode⟩] [] [(graph, node)] []
      ⟨loaded.script.withNode graph builder,
        Keyed.insert loaded.keys node.key ⟨loaded.script.nextNode⟩⟩ where
  keys := Keyed.insert_of_not_mem hout
  nodes := by
    rw [Registry.nodes_cons, hc]
    rfl
  graphs := by
    rw [List.append_nil]
    refine List.map_congr_left fun g _ => ?_
    simp only [fillAt, Graph.fill, Graph.addNode, List.append_nil]
  nextNode := rfl
  nextGraph := rfl
  accepted := List.forall_mem_singleton.2 (Registry.accepts_iff.2 ⟨builder, hc⟩)
  arena ha := ha.addNode (if_pos hg)

/-- A nested graph that is added and filled is one more that its parent lists. -/
theorem nest {loaded : Loaded β} {parent : GraphId} {name : String} (ha : loaded.script.Arena)
    (hp : loaded.script.containsGraph parent = true)
    (h : Filled registry { loaded with script := loaded.script.withGraph parent name }
      ⟨loaded.script.nextGraph⟩ members subs homes nested after) :
    Filled registry loaded parent [] [⟨loaded.script.nextGraph⟩] homes
      ({ id := ⟨loaded.script.nextGraph⟩, name := name, parent := some parent
         subGraphs := subs, nodes := members } :: nested) after where
  keys := h.keys
  nodes := h.nodes
  graphs := by
    have hold : ∀ g ∈ loaded.script.graphs, g.id ≠ ⟨loaded.script.nextGraph⟩ := by
      intro g hg heq
      have hlt := ha.room g.id (List.mem_map_of_mem hg)
      rw [heq] at hlt
      exact Nat.lt_irrefl _ hlt
    have hadd : ∀ g : Graph, (if g.id = parent then g.addSubGraph ⟨loaded.script.nextGraph⟩ else g)
        = fillAt parent [] [⟨loaded.script.nextGraph⟩] g := by
      intro g
      simp only [fillAt, Graph.fill, Graph.addSubGraph, List.append_nil]
    have hid : ∀ g : Graph, (fillAt parent [] [⟨loaded.script.nextGraph⟩] g).id = g.id := by
      intro g
      unfold fillAt
      split <;> rfl
    have hgraphs : (loaded.script.withGraph parent name).graphs =
        loaded.script.graphs.map (fillAt parent [] [⟨loaded.script.nextGraph⟩]) ++
          [{ id := ⟨loaded.script.nextGraph⟩, name := name, parent := some parent }] := by
      simp only [Script.withGraph, Script.modifyGraph, hadd]
    rw [h.graphs, hgraphs, List.map_append, map_fillAt, List.append_assoc]
    · simp only [List.map_cons, List.map_nil, fillAt, Graph.fill, if_true, List.nil_append,
        List.singleton_append]
    · intro g hg
      obtain ⟨old, hold', rfl⟩ := List.mem_map.1 hg
      rw [hid]
      exact hold old hold'
  nextNode := h.nextNode
  nextGraph := by
    rw [h.nextGraph, List.length_cons]
    exact Nat.add_right_comm _ _ _
  accepted := h.accepted
  arena ha := h.arena (ha.addGraph (Script.addGraph_eq_ok.2 ⟨hp, rfl⟩))

theorem containsGraph (h : Filled registry before graph members subs homes nested after)
    {id : GraphId} (hid : before.script.containsGraph id = true) :
    after.script.containsGraph id = true := by
  have hfill : ∀ g : Graph, (fillAt graph members subs g).id = g.id := by
    intro g
    unfold fillAt
    split <;> rfl
  rw [Script.containsGraph_iff] at hid ⊢
  rw [h.graphs, List.map_append, List.map_map]
  refine List.mem_append_left _ ?_
  obtain ⟨g, hg, rfl⟩ := List.mem_map.1 hid
  exact List.mem_map.2 ⟨g, hg, hfill g⟩

theorem keys_eq (h : Filled registry before graph members subs homes nested after)
    {pieces : List Piece} (hk : Keyed.keys before.keys = pieces.filterMap Piece.key?)
    {nodes : List NodeDef} (hn : homes.map (·.2) = nodes) :
    Keyed.keys after.keys = (pieces ++ nodes.map Piece.node).filterMap Piece.key? := by
  have hnodes : (nodes.map Piece.node).filterMap Piece.key? = nodes.map (·.key) := by
    rw [List.filterMap_map, ← List.filterMap_eq_map]
    rfl
  have hlabels := keys_labels homes before.script.nextNode
  rw [Keyed.keys] at hk hlabels ⊢
  rw [h.keys, List.map_append, List.filterMap_append, hk, hnodes, hlabels, ← hn, List.map_map]
  rfl

end Filled

/-! ## Placing -/

variable {registry : Registry β}

theorem instantiate_answers {graph : GraphId} {loaded : Loaded β}
    (hg : loaded.script.containsGraph graph = true) (node : NodeDef) :
    Answers ((registry.instantiate loaded.script graph node.type node.properties).mapError
        LoadError.core)
      (match registry.create node.type node.properties with
        | .ok _ => none
        | .error e => some (.core e))
      fun added => ∃ builder, registry.create node.type node.properties = .ok builder
        ∧ added = (⟨loaded.script.nextNode⟩, loaded.script.withNode graph builder) := by
  unfold Registry.instantiate
  rcases hc : registry.create node.type node.properties with e | builder
  · rfl
  · exact ⟨_, mapError_eq_ok.2 (bind_eq_ok.2 ⟨builder, rfl, if_pos hg⟩), builder, rfl, rfl⟩

/-- The nodes of a graph are created one after another, up to the first fault. -/
theorem placeNodes_answers (definition : GraphDef) (graph : GraphId) : ∀ (nodes : List NodeDef)
    (before : List Piece) (loaded : Loaded β),
      Keyed.keys loaded.keys = before.filterMap Piece.key? →
      loaded.script.containsGraph graph = true →
      Answers (placeNodes registry graph nodes loaded)
        (firstFault (definition.fault? registry) before (nodes.map .node))
        (Filled registry loaded graph (nodeIds loaded.script.nextNode nodes.length) []
          (nodes.map (graph, ·)) [])
  | [], before, loaded, _, _ => by
    rw [placeNodes]
    exact .ok (.refl registry loaded graph)
  | node :: nodes, before, loaded, hk, hg => by
    have hcontains : Keyed.contains loaded.keys node.key = true ↔
        node.key ∈ before.filterMap Piece.key? := by
      rw [← hk, Keyed.contains, Option.isSome_iff_ne_none, ne_eq, Keyed.get?_eq_none,
        Decidable.not_not]
    rw [placeNodes, List.map_cons, firstFault, GraphDef.fault?, GraphDef.nodeFault?]
    split
    · rename_i hmem
      rw [if_pos (hcontains.1 hmem), Option.some_or]
      rfl
    · rename_i hmem
      have hout : node.key ∉ before.filterMap Piece.key? := fun h => hmem (hcontains.2 h)
      rw [if_neg hout]
      refine (instantiate_answers hg node).bind ?_
      rintro added ⟨builder, hc, rfl⟩
      have hfirst := Filled.withNode hg (hk ▸ hout) hc
      have hkeys := hfirst.keys_eq hk (rfl : [(graph, node)].map (·.2) = [node])
      have hrest := placeNodes_answers definition graph nodes (before ++ [.node node]) _ hkeys
        (hfirst.containsGraph hg)
      refine hrest.imp fun after hafter => ?_
      have hboth := hfirst.trans hafter (List.forall_mem_nil _)
      rw [hfirst.nextNode] at hboth
      have hids : nodeIds loaded.script.nextNode (nodes.length + 1) =
          ⟨loaded.script.nextNode⟩ :: nodeIds (loaded.script.nextNode + 1) nodes.length := by
        rw [Nat.add_comm, ← nodeIds_append]
        rfl
      rw [List.length_cons, hids]
      exact hboth

mutual

theorem place_answers (definition : GraphDef) : ∀ (tree : GraphDef) (graph : GraphId)
    (before : List Piece) (loaded : Loaded β),
      Keyed.keys loaded.keys = before.filterMap Piece.key? → loaded.script.Arena →
      loaded.script.containsGraph graph = true →
      Answers (place registry tree graph loaded)
        (firstFault (definition.fault? registry) before (tree.entries.map .node))
        (Filled registry loaded graph (nodeIds loaded.script.nextNode tree.nodes.length)
          (GraphDef.roots tree.subGraphs loaded.script.nextGraph)
          (tree.nodes.map (graph, ·) ++
            homes (GraphDef.preorderAll tree.subGraphs) loaded.script.nextGraph)
          (GraphDef.graphsAll tree.subGraphs graph loaded.script.nextGraph
            (loaded.script.nextNode + tree.nodes.length)))
  | ⟨name, nodes, links, bindings, subs⟩, graph, before, loaded, hk, ha, hg => by
    rw [place, GraphDef.entries_eq, List.map_append, firstFault_append]
    refine (placeNodes_answers definition graph nodes before loaded hk hg).bind fun placed hp => ?_
    have hrest := placeAll_answers definition subs graph (before ++ nodes.map .node) placed
      (hp.keys_eq hk (by rw [List.map_map]; exact List.map_id _)) (hp.arena ha)
      (hp.containsGraph hg)
    refine hrest.imp fun after hafter => ?_
    have hboth := hp.trans hafter (List.forall_mem_nil _)
    rw [hp.nextNode, hp.nextGraph, List.append_nil, List.length_map] at hboth
    exact hboth

theorem placeAll_answers (definition : GraphDef) : ∀ (trees : List GraphDef) (parent : GraphId)
    (before : List Piece) (loaded : Loaded β),
      Keyed.keys loaded.keys = before.filterMap Piece.key? → loaded.script.Arena →
      loaded.script.containsGraph parent = true →
      Answers (placeAll registry trees parent loaded)
        (firstFault (definition.fault? registry) before ((GraphDef.entriesAll trees).map .node))
        (Filled registry loaded parent [] (GraphDef.roots trees loaded.script.nextGraph)
          (homes (GraphDef.preorderAll trees) loaded.script.nextGraph)
          (GraphDef.graphsAll trees parent loaded.script.nextGraph loaded.script.nextNode))
  | [], parent, before, loaded, _, _, _ => by
    rw [placeAll, GraphDef.roots, GraphDef.preorderAll, GraphDef.graphsAll]
    exact .ok (.refl registry loaded parent)
  | tree :: rest, parent, before, loaded, hk, ha, hg => by
    rw [placeAll, GraphDef.entriesAll_cons, List.map_append, firstFault_append]
    have hadd : Answers ((loaded.script.addGraph parent tree.name).mapError LoadError.core) none
        (· = (⟨loaded.script.nextGraph⟩, loaded.script.withGraph parent tree.name)) :=
      ⟨_, mapError_eq_ok.2 (Script.addGraph_eq_ok.2 ⟨hg, rfl⟩), rfl⟩
    refine hadd.bind fun added heq => ?_
    subst heq
    have hnested : (loaded.script.withGraph parent tree.name).containsGraph
        ⟨loaded.script.nextGraph⟩ = true := by
      rw [Script.containsGraph_iff, Script.withGraph, List.map_append]
      exact List.mem_append_right _ List.mem_cons_self
    refine (place_answers definition tree ⟨loaded.script.nextGraph⟩ before
      { loaded with script := loaded.script.withGraph parent tree.name } hk
      (ha.addGraph (Script.addGraph_eq_ok.2 ⟨hg, rfl⟩)) hnested).bind fun placed hp => ?_
    have hfirst : Filled registry loaded parent [] [⟨loaded.script.nextGraph⟩]
        (homes tree.preorder loaded.script.nextGraph)
        (GraphDef.graphs tree (some parent) loaded.script.nextGraph loaded.script.nextNode)
        placed := by
      rw [GraphDef.homes_preorder, GraphDef.graphs_eq]
      exact hp.nest ha hg
    have hhomes : ∀ k, (homes tree.preorder k).map (·.2) = tree.entries := nodes_homes tree.preorder
    have hrest := placeAll_answers definition rest parent (before ++ tree.entries.map .node) placed
      (hfirst.keys_eq hk (hhomes _)) (hfirst.arena ha) (hfirst.containsGraph hg)
    refine hrest.imp fun after hafter => ?_
    have hout : ∀ g ∈ GraphDef.graphs tree (some parent) loaded.script.nextGraph
        loaded.script.nextNode, g.id ≠ parent := by
      intro g hg' heq
      have hlt := ha.room parent (Script.containsGraph_iff.1 hg)
      have hnew := List.mem_map_of_mem (f := (·.id.raw)) hg'
      rw [GraphDef.ids_graphs, List.mem_range'_1, heq] at hnew
      exact Nat.not_lt_of_le hnew.1 hlt
    have hboth := hfirst.trans hafter hout
    have hlength : (homes tree.preorder loaded.script.nextGraph).length = tree.entries.length :=
      length_homes _ _
    rw [hfirst.nextNode, hfirst.nextGraph, GraphDef.length_graphs, hlength, ← homes_append] at hboth
    exact hboth

end

end Loaded

/-- What is there once the nodes of a definition have been created. -/
structure GraphDef.Placed (definition : GraphDef) (registry : Registry β) (loaded : Loaded β) :
    Prop where
  keys : loaded.keys = labels (homes definition.preorder 0) 0
  graphs : loaded.script.graphs = definition.graphs none 0 0
  nodes : loaded.script.nodes = definition.created registry
  accepted : ∀ node ∈ definition.entries, registry.Accepts node

theorem Loaded.placed_answers (definition : GraphDef) (registry : Registry β) :
    Answers
      (place registry definition rootGraph { script := .withRootName definition.name })
      (firstFault (definition.fault? registry) [] (definition.entries.map .node))
      (definition.Placed registry) := by
  refine (place_answers definition definition rootGraph []
    { script := .withRootName definition.name } rfl (.withRootName _) rfl).imp fun loaded h => ?_
  have hhomes : definition.nodes.map (rootGraph, ·) ++
      homes (GraphDef.preorderAll definition.subGraphs) 1 = homes definition.preorder 0 :=
    (definition.homes_preorder 0).symm
  have hentries : (homes definition.preorder 0).map (·.2) = definition.entries := nodes_homes _ 0
  refine ⟨?_, ?_, ?_, fun node hn => ?_⟩
  · rw [← hhomes]
    exact h.keys.trans (List.nil_append _)
  · rw [GraphDef.graphs_eq]
    exact h.graphs
  · rw [GraphDef.created, ← hhomes]
    exact h.nodes.trans (List.nil_append _)
  · rw [← hentries, ← hhomes] at hn
    obtain ⟨home, hmem, rfl⟩ := List.mem_map.1 hn
    exact h.accepted home hmem

end FlowScript
