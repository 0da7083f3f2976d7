import FlowScript.Proofs.Arena
import FlowScript.Proofs.Recreation

/-!
# Placing a script once more

A definition is placed graph by graph, and the ids are handed out on the way. The description of
what became of the script lists its graphs and nodes in the same order, so that placing it takes the
same steps and hands out the same ids (`place_again`).
-/

namespace FlowScript

variable {β : Type}

namespace Script

variable {script : Script β}

/-! ## Looking graphs up -/

theorem graph?_modifyGraph (script : Script β) {f : Graph → Graph} (hf : ∀ g, (f g).id = g.id)
    (id id' : GraphId) : (script.modifyGraph id f).graph? id' =
      if id' = id then (script.graph? id').map f else script.graph? id' := by
  have hmap : (script.modifyGraph id f).graph? id' =
      (script.graph? id').map fun g => if g.id = id then f g else g := by
    unfold graph? modifyGraph
    rw [List.find?_map]
    congr 2
    funext g
    simp only [Function.comp]
    split <;> simp only [hf]
  rw [hmap]
  rcases hg : script.graph? id' with _ | g
  · rw [Option.map_none, Option.map_none, ite_self]
  · have hid : g.id = id' := by simpa using List.find?_some hg
    rw [Option.map_some, hid]
    split <;> rfl

theorem graph?_withNode (script : Script β) (graph id : GraphId) (builder : NodeBuilder β) :
    (script.withNode graph builder).graph? id =
      if id = graph then (script.graph? id).map (·.addNode ⟨script.nextNode⟩)
      else script.graph? id :=
  script.graph?_modifyGraph (f := (·.addNode ⟨script.nextNode⟩)) (fun _ => rfl) graph id

/-- The script with one more graph, listed last by its parent. -/
def withGraph (script : Script β) (parent : GraphId) (name : String) : Script β :=
  let id : GraphId := ⟨script.nextGraph⟩
  { script.modifyGraph parent (·.addSubGraph id) with
    graphs := (script.modifyGraph parent (·.addSubGraph id)).graphs ++
      [{ id := id, name := name, parent := some parent }]
    nextGraph := script.nextGraph + 1 }

theorem length_withGraph (script : Script β) (parent : GraphId) (name : String) :
    (script.withGraph parent name).graphs.length = script.graphs.length + 1 := by
  simp only [withGraph, modifyGraph, List.length_append, List.length_map, List.length_singleton]

theorem addGraph_eq_ok {parent : GraphId} {name : String} {added : GraphId × Script β} :
    script.addGraph parent name = .ok added ↔ script.containsGraph parent = true
      ∧ added = (⟨script.nextGraph⟩, script.withGraph parent name) := by
  unfold addGraph
  split
  · rename_i hgraph
    exact ⟨fun h => ⟨hgraph, (Except.ok.inj h).symm⟩, fun h => h.2 ▸ rfl⟩
  · rename_i hgraph
    exact ⟨nofun, fun h => absurd h.1 hgraph⟩

theorem Arena.lt_of_graph? (h : script.Arena) {id : GraphId} {g : Graph}
    (hg : script.graph? id = some g) : id.raw < script.nextGraph :=
  h.room id (containsGraph_iff.1 (by rw [containsGraph, hg, Option.isSome_some]))

theorem graph?_withGraph (ha : script.Arena) (parent id : GraphId) (name : String) :
    (script.withGraph parent name).graph? id =
      if id = ⟨script.nextGraph⟩ then some { id := id, name := name, parent := some parent }
      else if id = parent then (script.graph? id).map (·.addSubGraph ⟨script.nextGraph⟩)
      else script.graph? id := by
  have hold := script.graph?_modifyGraph (f := (·.addSubGraph ⟨script.nextGraph⟩)) (fun _ => rfl)
    parent id
  have hfind : (script.withGraph parent name).graph? id =
      ((script.modifyGraph parent (·.addSubGraph ⟨script.nextGraph⟩)).graph? id).or
        (if (⟨script.nextGraph⟩ : GraphId) = id then
          some { id := ⟨script.nextGraph⟩, name := name, parent := some parent } else none) := by
    simp only [graph?, withGraph, List.find?_append, List.find?_singleton, decide_eq_true_eq]
  rw [hfind, hold]
  by_cases hid : id = ⟨script.nextGraph⟩
  · subst hid
    have hnew : script.graph? ⟨script.nextGraph⟩ = none := by
      rcases hg : script.graph? ⟨script.nextGraph⟩ with _ | g
      · rfl
      · exact absurd (ha.lt_of_graph? hg) (Nat.lt_irrefl _)
    simp [hnew]
  · simp [hid, Ne.symm hid]

/-! ## Growth -/

/-- How a script grows when one of its graphs is filled: the graph lists more members and nested
graphs, the new nodes come after the others, and a graph that was there is otherwise as it was. -/
structure Grows (before after : Script β) (graph : GraphId) (members : List NodeId)
    (subs : List GraphId) (added : List (Node β)) : Prop where
  next : before.nextGraph ≤ after.nextGraph
  count : before.graphs.length ≤ after.graphs.length
  nodes : after.nodes = before.nodes ++ added
  own : ∀ g, before.graph? graph = some g → after.graph? graph =
    some { g with nodes := g.nodes ++ members, subGraphs := g.subGraphs ++ subs }
  others : ∀ id : GraphId, id.raw < before.nextGraph → id ≠ graph →
    after.graph? id = before.graph? id

namespace Grows

variable {before between after : Script β} {graph : GraphId} {members more : List NodeId}
  {subs further : List GraphId} {added rest : List (Node β)}

theorem refl (script : Script β) (graph : GraphId) : script.Grows script graph [] [] [] where
  next := Nat.le_refl _
  count := Nat.le_refl _
  nodes := (List.append_nil _).symm
  own g hg := by simpa only [List.append_nil] using hg
  others _ _ _ := rfl

theorem trans (h : before.Grows between graph members subs added)
    (h' : between.Grows after graph more further rest) :
    before.Grows after graph (members ++ more) (subs ++ further) (added ++ rest) where
  next := Nat.le_trans h.next h'.next
  count := Nat.le_trans h.count h'.count
  nodes := by rw [h'.nodes, h.nodes, List.append_assoc]
  own g hg := by
    rw [h'.own _ (h.own g hg)]
    simp only [List.append_assoc]
  others id hid hne := by
    rw [h'.others id (Nat.lt_of_lt_of_le hid h.next) hne, h.others id hid hne]

theorem withNode (script : Script β) (graph : GraphId) (builder : NodeBuilder β) :
    script.Grows (script.withNode graph builder) graph [⟨script.nextNode⟩] []
      [builder.build ⟨script.nextNode⟩ graph] where
  next := Nat.le_refl _
  count := by simp only [Script.withNode, modifyGraph, List.length_map, Nat.le_refl]
  nodes := rfl
  own g hg := by
    rw [graph?_withNode, if_pos rfl, hg, Option.map_some, Graph.addNode, List.append_nil]
  others id _ hne := by rw [graph?_withNode, if_neg hne]

/-- A nested graph that is added and filled is one more that its parent lists. -/
theorem nested (ha : before.Arena) {parent : GraphId} {name : String}
    (h : (before.withGraph parent name).Grows after ⟨before.nextGraph⟩ members subs added) :
    before.Grows after parent [] [⟨before.nextGraph⟩] added := by
  have hold : ∀ id : GraphId, id.raw < before.nextGraph → id ≠ ⟨before.nextGraph⟩ := by
    rintro id hid rfl
    exact Nat.lt_irrefl _ hid
  have hkept : ∀ id : GraphId, id.raw < before.nextGraph →
      after.graph? id = (before.withGraph parent name).graph? id := fun id hid =>
    h.others id (Nat.lt_succ_of_lt hid) (hold id hid)
  refine ⟨Nat.le_of_succ_le h.next, ?_, h.nodes, fun g hg => ?_, fun id hid hne => ?_⟩
  · have hcount := h.count
    rw [length_withGraph] at hcount
    omega
  · have hlt := ha.lt_of_graph? hg
    rw [hkept parent hlt, graph?_withGraph ha, if_neg (hold parent hlt), if_pos rfl, hg,
      Option.map_some, Graph.addSubGraph, List.append_nil]
  · rw [hkept id hid, graph?_withGraph ha, if_neg (hold id hid), if_neg hne]

end Grows

end Script

/-! ## The same steps once more -/

/-- What became of the node, by the state of a later script, as it is without connections. -/
def Node.renewed (later : Script β) (node : Node β) : Node β :=
  (later.node? node.id).elim node (·.reset node.behavior)

/-- The script with what became of its nodes. -/
def Script.renewed (script later : Script β) : Script β :=
  { script with nodes := script.nodes.map (·.renewed later) }

namespace Loaded

/-- The script with what became of its nodes, under the same keys. -/
def renewed (loaded : Loaded β) (later : Script β) : Loaded β :=
  { loaded with script := loaded.script.renewed later }

/-- Each node is still there, has its key as its name, and is created again from its description. -/
structure Redoable (registry : Registry β) (names : Names) (later : Script β) (loaded : Loaded β) :
    Prop where
  named : ∀ e ∈ loaded.keys, names.get e.2 = e.1
  nodes : ∀ node ∈ loaded.script.nodes, ∃ now builder, later.node? node.id = some now
    ∧ now.type = node.type
    ∧ registry.create now.type (Script.nodeDef names now).properties = .ok builder
    ∧ builder.build node.id node.graph = now.reset node.behavior

end Loaded

/-- The graphs describe the connections and the bindings of the nodes, one node after another. -/
structure Script.Tells (script : Script β) (names : Names) (graphs : List GraphDef)
    (nodes : List (Node β)) : Prop where
  links : graphs.flatMap (·.links) = nodes.flatMap (script.linkDefs names)
  bound : graphs.flatMap (·.bindings) = nodes.flatMap (script.bindingDefs names)

theorem Script.Tells.append {script : Script β} {names : Names} {graphs graphs' : List GraphDef}
    {nodes nodes' : List (Node β)} (h : script.Tells names graphs nodes)
    (h' : script.Tells names graphs' nodes') :
    script.Tells names (graphs ++ graphs') (nodes ++ nodes') := by
  constructor
  · rw [List.flatMap_append, List.flatMap_append, h.links, h'.links]
  · rw [List.flatMap_append, List.flatMap_append, h.bound, h'.bound]

namespace Loaded

variable {registry : Registry β} {names : Names} {later : Script β} {before after : Loaded β}

theorem Redoable.mono (h : Redoable registry names later after) (hk : before.keys ⊆ after.keys)
    (hn : before.script.nodes ⊆ after.script.nodes) : Redoable registry names later before where
  named e he := h.named e (hk he)
  nodes node hnode := h.nodes node (hn hnode)

theorem subset_keys (registry : Registry β) (start : Keys) :
    PlacingKeeps registry (fun _ => True) fun loaded => start ⊆ loaded.keys where
  graph _ kept := kept
  node _ new _ _ kept := by
    rw [Keyed.insert_of_not_mem]
    · exact fun e he => List.mem_append_left _ (kept he)
    · rw [← Keyed.get?_eq_none, ← Option.not_isSome_iff_eq_none]
      simpa [Keyed.contains] using new

theorem arena_keeps (registry : Registry β) :
    PlacingKeeps registry (fun _ => True) fun loaded => loaded.script.Arena where
  graph done kept := kept.addGraph done
  node _ _ _ done kept := kept.addNode done

theorem renewed_withNode {script : Script β} {graph : GraphId} {builder builder' : NodeBuilder β}
    {now : Node β} (hn : later.node? ⟨script.nextNode⟩ = some now)
    (ht : builder'.type = builder.type)
    (hb : builder'.build ⟨script.nextNode⟩ graph = now.reset (some builder.behavior)) :
    (script.renewed later).withNode graph builder' =
      (script.withNode graph builder).renewed later := by
  have hnew : (builder.build ⟨script.nextNode⟩ graph).renewed later =
      builder'.build ⟨script.nextNode⟩ graph := by
    rw [hb]
    simp only [Node.renewed, NodeBuilder.build, hn, Option.elim_some]
  simp only [Script.renewed, Script.withNode, List.map_append, List.map_cons, List.map_nil, hnew,
    ht]
  rfl

/-- The description of a node that was placed places it again. -/
theorem Redoable.addNode_again (h : Redoable registry names later after) {script : Script β}
    {graph : GraphId} {builder : NodeBuilder β} (hgraph : script.containsGraph graph = true)
    (hplaced : builder.build ⟨script.nextNode⟩ graph ∈ after.script.nodes) :
    ∃ now builder', later.node? ⟨script.nextNode⟩ = some now
      ∧ registry.create now.type (Script.nodeDef names now).properties = .ok builder'
      ∧ (script.renewed later).addNode graph builder' =
        .ok (⟨script.nextNode⟩, (script.withNode graph builder).renewed later) := by
  obtain ⟨now, builder', hnow, htype, hcreate, hbuild⟩ := h.nodes _ hplaced
  have hsame : (script.renewed later).withNode graph builder' =
      (script.withNode graph builder).renewed later :=
    renewed_withNode hnow ((congrArg Node.type hbuild :).trans htype) hbuild
  refine ⟨now, builder', hnow, hcreate, ?_⟩
  rw [← hsame, Script.addNode]
  exact if_pos hgraph

theorem placeNodes_again (graph : GraphId) : ∀ (nodes : List NodeDef) {before after : Loaded β},
    placeNodes registry graph nodes before = .ok after → ∃ added : List (Node β),
      before.script.Grows after.script graph (added.map (·.id)) [] added
        ∧ (Redoable registry names later after →
          placeNodes registry graph
            (((added.map (·.id)).filterMap later.node?).map (Script.nodeDef names))
            (before.renewed later) = .ok (after.renewed later))
  | [], before, after, h => by
    rw [placeNodes] at h
    obtain rfl := Except.ok.inj h
    exact ⟨[], .refl _ graph, fun _ => rfl⟩
  | node :: rest, before, after, h => by
    rw [placeNodes] at h
    split at h
    · cases h
    rename_i hnew
    obtain ⟨created, hi, h⟩ := bind_eq_ok.1 h
    obtain ⟨builder, hb, hadd⟩ := bind_eq_ok.1 (mapError_eq_ok.1 hi)
    obtain ⟨hgraph, rfl⟩ := Script.addNode_eq_ok hadd
    obtain ⟨added, hgrows, hredo⟩ := placeNodes_again graph rest h
    have hkeys := (subset_keys registry _).placeNodes graph rest (fun _ _ => trivial) h
      (List.Subset.refl _)
    refine ⟨builder.build ⟨before.script.nextNode⟩ graph :: added,
      (Script.Grows.withNode before.script graph builder).trans hgrows, fun hre => ?_⟩
    have hmem : builder.build ⟨before.script.nextNode⟩ graph ∈ after.script.nodes := by
      rw [hgrows.nodes]
      exact List.mem_append_left _ (List.mem_append_right _ List.mem_cons_self)
    obtain ⟨now, builder', hnow, hcreate, hplaced⟩ := hre.addNode_again hgraph hmem
    have hid : now.id = ⟨before.script.nextNode⟩ := Script.id_of_node? hnow
    -- The node has the key under which it was created.
    have hname : names.get now.id = node.key := by
      rw [hid]
      refine hre.named (node.key, ⟨before.script.nextNode⟩) (hkeys ?_)
      refine Keyed.mem_of_get? ?_
      rw [Keyed.get?_insert, if_pos rfl]
    have hkey : ¬ Keyed.contains (before.renewed later).keys (Script.nodeDef names now).key := by
      rw [show (Script.nodeDef names now).key = node.key from hname]
      exact hnew
    rw [List.map_cons, NodeBuilder.build, List.filterMap_cons_some hnow, List.map_cons, placeNodes,
      if_neg hkey]
    refine bind_eq_ok.2 ⟨_, mapError_eq_ok.2 (bind_eq_ok.2 ⟨builder', hcreate, hplaced⟩), ?_⟩
    rw [show (Script.nodeDef names now).key = node.key from hname]
    exact hredo hre

mutual

/-- Placing the description of a graph that was placed takes the same steps. -/
theorem place_again : ∀ (definition : GraphDef) (graph : GraphId) {before after : Loaded β},
    place registry definition graph before = .ok after → before.script.Arena →
      ∀ g, before.script.graph? graph = some g → g.nodes = [] → g.subGraphs = [] →
        ∃ members subs added, before.script.Grows after.script graph members subs added
          ∧ ∀ fuel, after.script.graphs.length < before.script.graphs.length + fuel →
            Redoable registry names later after →
            (∀ id : GraphId, id = graph ∨ before.script.nextGraph ≤ id.raw →
              id.raw < after.script.nextGraph → later.graph? id = after.script.graph? id) →
            (later.graphDef names fuel graph).name = g.name
              ∧ place registry (later.graphDef names fuel graph) graph (before.renewed later) =
                .ok (after.renewed later)
              ∧ later.Tells names (later.graphDef names fuel graph).preorder
                ((added.map (·.id)).filterMap later.node?)
  | ⟨name, nodes, links, bindings, subs⟩, graph, before, after, h, ha, g, hg, hnodes, hsubs => by
    rw [place] at h
    obtain ⟨placed, hn, h⟩ := bind_eq_ok.1 h
    obtain ⟨added, hgrows, hredo⟩ := placeNodes_again graph nodes hn
    have ha' : placed.script.Arena := (arena_keeps registry).placeNodes graph nodes
      (fun _ _ => trivial) hn ha
    obtain ⟨ids, added', hgrows', hredo'⟩ := placeAll_again subs graph h ha'
    have htotal := hgrows.trans hgrows'
    refine ⟨_, _, _, htotal, fun fuel hf hre hlater => ?_⟩
    rcases fuel with _ | fuel
    · have hcount := htotal.count
      omega
    -- The graph has been filled, and nothing has changed it since.
    have hlt := Nat.lt_of_lt_of_le (ha.lt_of_graph? hg) htotal.next
    have hfound : later.graph? graph =
        some { g with nodes := added.map (·.id), subGraphs := ids } := by
      rw [hlater graph (.inl rfl) hlt, htotal.own g hg, hnodes, hsubs]
      simp only [List.append_nil, List.nil_append]
    have hkeys := (subset_keys registry _).placeAll subs graph (fun _ _ _ _ => trivial) h
      (List.Subset.refl _)
    have hre' := hre.mono hkeys (hgrows'.nodes ▸ List.subset_append_left _ _)
    obtain ⟨hplace, htells⟩ := hredo' fuel (by have := hgrows.count; omega) hre
      fun id hid => hlater id (.inr (Nat.le_trans hgrows.next hid))
    rw [Script.graphDef, hfound]
    refine ⟨rfl, ?_, ?_⟩
    · rw [place]
      exact bind_eq_ok.2 ⟨_, hredo hre', hplace⟩
    · rw [GraphDef.preorder, List.map_append, List.filterMap_append, ← List.singleton_append]
      exact Script.Tells.append ⟨List.flatMap_singleton .., List.flatMap_singleton ..⟩ htells

theorem placeAll_again : ∀ (subs : List GraphDef) (parent : GraphId) {before after : Loaded β},
    placeAll registry subs parent before = .ok after → before.script.Arena →
      ∃ ids added, before.script.Grows after.script parent [] ids added
        ∧ ∀ fuel, after.script.graphs.length ≤ before.script.graphs.length + fuel →
          Redoable registry names later after →
          (∀ id : GraphId, before.script.nextGraph ≤ id.raw →
            id.raw < after.script.nextGraph → later.graph? id = after.script.graph? id) →
          placeAll registry (ids.map (later.graphDef names fuel)) parent (before.renewed later) =
              .ok (after.renewed later)
            ∧ later.Tells names (GraphDef.preorderAll (ids.map (later.graphDef names fuel)))
              ((added.map (·.id)).filterMap later.node?)
  | [], parent, before, after, h, ha => by
    rw [placeAll] at h
    obtain rfl := Except.ok.inj h
    exact ⟨[], [], .refl _ parent, fun _ _ _ _ => ⟨rfl, rfl, rfl⟩⟩
  | sub :: rest, parent, before, after, h, ha => by
    rw [placeAll] at h
    obtain ⟨created, hadd, h⟩ := bind_eq_ok.1 h
    rw [mapError_eq_ok] at hadd
    have ha' := ha.addGraph hadd
    obtain ⟨hparent, rfl⟩ := Script.addGraph_eq_ok.1 hadd
    obtain ⟨nested, hn, h⟩ := bind_eq_ok.1 h
    have hg : (before.script.withGraph parent sub.name).graph? ⟨before.script.nextGraph⟩ =
        some { id := ⟨before.script.nextGraph⟩, name := sub.name, parent := some parent } := by
      rw [Script.graph?_withGraph ha, if_pos rfl]
    obtain ⟨members, subs, added, hgrows, hredo⟩ := place_again sub _ hn ha' _ hg rfl rfl
    have ha'' : nested.script.Arena := (arena_keeps registry).place sub _
      (fun _ _ _ _ => trivial) hn ha'
    obtain ⟨ids, added', hgrows', hredo'⟩ := placeAll_again rest parent h ha''
    refine ⟨⟨before.script.nextGraph⟩ :: ids, added ++ added', (hgrows.nested ha).trans hgrows',
      fun fuel hf hre hlater => ?_⟩
    have hkeys := (subset_keys registry _).placeAll rest parent (fun _ _ _ _ => trivial) h
      (List.Subset.refl _)
    have hre' := hre.mono hkeys (hgrows'.nodes ▸ List.subset_append_left _ _)
    have hnext : before.script.nextGraph < nested.script.nextGraph := hgrows.next
    have hone := before.script.length_withGraph parent sub.name
    have hcount : (before.script.withGraph parent sub.name).graphs.length ≤
        nested.script.graphs.length := hgrows.count
    have hcount' := hgrows'.count
    have hold : parent.raw < before.script.nextGraph := by
      obtain ⟨p, hp⟩ := Option.isSome_iff_exists.1 hparent
      exact ha.lt_of_graph? hp
    obtain ⟨hname, hplace, htells⟩ := hredo fuel (by dsimp only; omega) hre'
      fun id hid hlt => by
        have hlow : before.script.nextGraph ≤ id.raw := by
          rcases hid with rfl | hid
          · exact Nat.le_refl _
          · exact Nat.le_of_succ_le hid
        have hne : id ≠ parent := by
          rintro rfl
          omega
        rw [hlater id hlow (Nat.lt_of_lt_of_le hlt hgrows'.next), hgrows'.others id hlt hne]
    obtain ⟨hall, htells'⟩ := hredo' fuel (by omega) hre
      fun id hid => hlater id (by omega)
    rw [List.map_cons]
    constructor
    · rw [placeAll]
      refine bind_eq_ok.2 ⟨_, mapError_eq_ok.2 (Script.addGraph_eq_ok.2 ⟨hparent, rfl⟩), ?_⟩
      rw [hname]
      exact bind_eq_ok.2 ⟨_, hplace, hall⟩
    · rw [GraphDef.preorderAll, List.map_append, List.filterMap_append]
      exact htells.append htells'

end

/-- Placing the description of a whole script that was placed gives the script again, with what
became of its nodes. -/
theorem placed_again {definition : GraphDef} {placed : Loaded β}
    (h : place registry definition rootGraph { script := .withRootName definition.name } =
      .ok placed)
    (hg : later.graphs = placed.script.graphs)
    (hn : later.nodes.map (·.id) = placed.script.nodes.map (·.id))
    (ha : later.Arena) (hre : Redoable registry names later placed) {described : GraphDef}
    (hd : described = later.graphDef names (later.graphs.length + 1) rootGraph) :
    place registry described rootGraph { script := .withRootName described.name } =
        .ok (placed.renewed later)
      ∧ later.Tells names described.preorder later.nodes := by
  subst hd
  obtain ⟨members, subs, added, hgrows, hredo⟩ := @place_again β registry names later definition
    rootGraph _ _ h (.withRootName definition.name) _ rfl rfl rfl
  have hfind : later.graph? = placed.script.graph? := by
    funext id
    rw [Script.graph?, hg, Script.graph?]
  obtain ⟨hname, hplace, htells⟩ := hredo (later.graphs.length + 1) (by rw [hg]; omega) hre
    fun id _ _ => congrFun hfind id
  have hadded : placed.script.nodes = added := hgrows.nodes
  rw [← hadded, ← hn, ha.filterMap_node? _ (List.Subset.refl _)] at htells
  rw [hname]
  exact ⟨hplace, htells⟩

end Loaded

end FlowScript
