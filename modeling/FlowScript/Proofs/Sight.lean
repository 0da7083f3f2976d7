import FlowScript.Proofs.Placing
import FlowScript.Proofs.Removal

/-!
# What a script shows

What can be seen of a script are its graphs, its nodes and what is listed under each type
(`Script.sight`); the counters that ids are taken from cannot. Ids only go up. So what a script
showed before there were certain graphs and nodes is what it shows without ids from two numbers on
(`Sight.before`). That is all it shows if it has and lists no such graphs and nodes
(`Tidy.before_eq`), and it stays the same when such a graph or node is added, is joined to others,
or is gone.
-/

namespace FlowScript

variable {β : Type}

/-- What can be seen of a script. -/
structure Sight (β : Type) where
  graphs : List Graph
  nodes : List (Node β)
  typed : TypeId → List NodeId

/-- What the script shows. A type under which nothing is listed does not show. -/
def Script.sight (script : Script β) : Sight β where
  graphs := script.graphs
  nodes := script.nodes
  typed type := (Keyed.get? script.byType type).getD []

/-- The graph, as far as it lists graphs and nodes that are numbered below the given ones. -/
def Graph.before (graphs nodes : Nat) (graph : Graph) : Graph :=
  { graph with
    subGraphs := graph.subGraphs.filter (·.raw < graphs)
    nodes := graph.nodes.filter (·.raw < nodes) }

/-- The node, as far as its links list nodes that are numbered below the given one. -/
def Node.before (nodes : Nat) (node : Node β) : Node β :=
  { node with
    inputs := node.inputs.map fun link =>
      { link with connected := link.connected.filter (·.node.raw < nodes) }
    outputs := node.outputs.map fun link =>
      { link with connected := link.connected.filter (·.node.raw < nodes) }
    links := node.links.map fun link => { link with bound := link.bound.filter (·.raw < nodes) } }

/-- What can be seen of the graphs and nodes that are numbered below the given ones. -/
def Sight.before (graphs nodes : Nat) (sight : Sight β) : Sight β where
  graphs := (sight.graphs.filter (·.id.raw < graphs)).map (·.before graphs nodes)
  nodes := (sight.nodes.filter (·.id.raw < nodes)).map (·.before nodes)
  typed type := (sight.typed type).filter (·.raw < nodes)

namespace Script

variable {script : Script β} {graphs nodes : Nat}

/-! ## All there is -/

theorem live_of_output? {o : OutputRef} (h : (script.output? o).isSome) :
    o.node ∈ script.nodes.map (·.id) := by
  obtain ⟨link, hl⟩ := Option.isSome_iff_exists.1 h
  obtain ⟨node, hn, -⟩ := Option.bind_eq_some_iff.1 hl
  exact live_of_node? hn

theorem live_of_input? {i : InputRef} (h : (script.input? i).isSome) :
    i.node ∈ script.nodes.map (·.id) := by
  obtain ⟨link, hl⟩ := Option.isSome_iff_exists.1 h
  obtain ⟨node, hn, -⟩ := Option.bind_eq_some_iff.1 hl
  exact live_of_node? hn

theorem filter_eq_of_live {α ι : Type} {ref : α → ι} {raw : ι → Nat} {live : List ι} {bound : Nat}
    (hlive : ∀ id ∈ live, raw id < bound) {l : List α} (hl : ∀ a ∈ l, ref a ∈ live) :
    l.filter (fun a => raw (ref a) < bound) = l :=
  List.filter_eq_self.2 fun a ha => decide_eq_true (hlive _ (hl a ha))

namespace Tidy

variable (h : script.Tidy) (ha : script.Arena)
  (hg : ∀ id ∈ script.graphs.map (·.id), id.raw < graphs)
  (hn : ∀ id ∈ script.nodes.map (·.id), id.raw < nodes)
  (hb : ∀ ref, ∀ id ∈ script.bound ref, id.raw < nodes)

include h hn hb

/-- The inputs and outputs of a node list nodes that there are. -/
theorem node_before {node : Node β} (hm : node ∈ script.nodes) : node.before nodes = node := by
  have hfind := h.filed.node?_eq hm
  have hinputs : (node.inputs.map fun link =>
      { link with connected := link.connected.filter (·.node.raw < nodes) }) = node.inputs := by
    refine (List.map_congr_left fun link hl => ?_).trans (List.map_id _)
    obtain ⟨k, hk⟩ := List.getElem?_of_mem hl
    have hlink : script.input? ⟨node.id, k⟩ = some link := by
      rw [input?, hfind, Option.bind_some, hk]
    rw [filter_eq_of_live hn fun o ho => live_of_output? (h.paired.resolves (i := ⟨node.id, k⟩)
      ((h.paired.both o _).2 (by rwa [sources_of_input? hlink]))).1]
    rfl
  have houtputs : (node.outputs.map fun link =>
      { link with connected := link.connected.filter (·.node.raw < nodes) }) = node.outputs := by
    refine (List.map_congr_left fun link hl => ?_).trans (List.map_id _)
    obtain ⟨k, hk⟩ := List.getElem?_of_mem hl
    have hlink : script.output? ⟨node.id, k⟩ = some link := by
      rw [output?, hfind, Option.bind_some, hk]
    rw [filter_eq_of_live hn fun i hi => live_of_input? (h.paired.resolves (o := ⟨node.id, k⟩)
      (by rwa [Connected, targets_of_output? hlink])).2]
    rfl
  have hlinks : (node.links.map fun link =>
      { link with bound := link.bound.filter (·.raw < nodes) }) = node.links := by
    refine (List.map_congr_left fun link hl => ?_).trans (List.map_id _)
    obtain ⟨k, hk⟩ := List.getElem?_of_mem hl
    have hlink : script.link? ⟨node.id, k⟩ = some link := by
      rw [link?, hfind, Option.bind_some, hk]
    have hbound : ∀ id ∈ link.bound, decide (id.raw < nodes) = true := by
      rw [← bound_of_link? hlink]
      exact fun id hid => decide_eq_true (hb _ id hid)
    rw [List.filter_eq_self.2 hbound]
    rfl
  simp only [Node.before, hinputs, houtputs, hlinks]

include ha hg

/-- All that can be seen of a script is seen if no graph and no node is numbered from there on, and
no value link lists what would be. -/
theorem before_eq : script.sight.before graphs nodes = script.sight := by
  have hmembers : ∀ p : Member → Bool, ∀ id ∈ (script.members.filter p).map (·.id),
      id ∈ script.nodes.map (·.id) := by
    intro p id hid
    obtain ⟨m, hm, rfl⟩ := List.mem_map.1 hid
    obtain ⟨node, hnode, rfl⟩ := List.mem_map.1 (List.mem_filter.1 hm).1
    exact List.mem_map_of_mem hnode
  have hgraphs : (script.graphs.filter (·.id.raw < graphs)).map (·.before graphs nodes) =
      script.graphs := by
    rw [filter_eq_of_live hg fun g => List.mem_map_of_mem]
    refine (List.map_congr_left fun g hlive => ?_).trans (List.map_id _)
    have hsubs : ∀ sub ∈ g.subGraphs, sub ∈ script.graphs.map (·.id) := by
      intro sub hs
      obtain ⟨inner, hi, rfl, -⟩ := (ha.nesting.mem_subGraphs hlive).1 hs
      exact List.mem_map_of_mem hi
    have hlist := h.filed.listed g hlive
    rw [Graph.before, filter_eq_of_live hg hsubs, filter_eq_of_live hn (hlist ▸ hmembers _)]
    rfl
  have hnodes : (script.nodes.filter (·.id.raw < nodes)).map (·.before nodes) = script.nodes := by
    rw [filter_eq_of_live hn fun node => List.mem_map_of_mem]
    exact (List.map_congr_left fun node => h.node_before hn hb).trans (List.map_id _)
  have htyped : ∀ type, ((Keyed.get? script.byType type).getD []).filter (·.raw < nodes) =
      (Keyed.get? script.byType type).getD [] := by
    intro type
    rw [h.filed.typed type, filter_eq_of_live hn (hmembers _)]
  simp only [Sight.before, sight, hgraphs, hnodes, htyped]

end Tidy

/-! ## What is added, joined or gone -/

/-- A new graph is not seen. -/
theorem before_withGraph (script : Script β) (parent : GraphId) (name : String)
    (hg : graphs ≤ script.nextGraph) :
    (script.withGraph parent name).sight.before graphs nodes =
      script.sight.before graphs nodes := by
  have hout : ¬ script.nextGraph < graphs := Nat.not_lt.2 hg
  have hid : ∀ g : Graph,
      (if g.id = parent then g.addSubGraph ⟨script.nextGraph⟩ else g).id = g.id := by
    intro g
    split <;> rfl
  have hsame : ∀ g : Graph, (if g.id = parent then g.addSubGraph ⟨script.nextGraph⟩ else g).before
      graphs nodes = g.before graphs nodes := by
    intro g
    split
    · simp [Graph.before, Graph.addSubGraph, hout]
    · rfl
  simp only [sight, Sight.before, withGraph, modifyGraph, List.filter_append, List.filter_map,
    List.map_append, List.map_map, Function.comp_def, hid, hsame]
  simp [hout]

/-- A new node is not seen. -/
theorem before_withNode (script : Script β) (graph : GraphId) (builder : NodeBuilder β)
    (hn : nodes ≤ script.nextNode) :
    (script.withNode graph builder).sight.before graphs nodes =
      script.sight.before graphs nodes := by
  have hout : ¬ script.nextNode < nodes := Nat.not_lt.2 hn
  have hid : ∀ g : Graph, (if g.id = graph then g.addNode ⟨script.nextNode⟩ else g).id = g.id := by
    intro g
    split <;> rfl
  have hsame : ∀ g : Graph, (if g.id = graph then g.addNode ⟨script.nextNode⟩ else g).before
      graphs nodes = g.before graphs nodes := by
    intro g
    split
    · simp [Graph.before, Graph.addNode, hout]
    · rfl
  have htyped : ∀ type, ((Keyed.get? (script.withNode graph builder).byType type).getD []).filter
      (·.raw < nodes) = ((Keyed.get? script.byType type).getD []).filter (·.raw < nodes) := by
    intro type
    simp only [withNode, Keyed.get?_insert]
    split
    · rename_i heq
      simp [hout, heq]
    · rfl
  have hnodes : ((script.withNode graph builder).nodes.filter (·.id.raw < nodes)) =
      script.nodes.filter (·.id.raw < nodes) := by
    simp [withNode, NodeBuilder.build, hout]
  have hgraphs : ((script.withNode graph builder).graphs.filter (·.id.raw < graphs)).map
      (·.before graphs nodes) =
        (script.graphs.filter (·.id.raw < graphs)).map (·.before graphs nodes) := by
    simp only [withNode, modifyGraph, List.filter_map, List.map_map, Function.comp_def, hid, hsame]
  simp only [sight, Sight.before, htyped, hnodes, hgraphs]

/-- A change of a node is not seen if the node is not, or if nothing of the change is. -/
theorem before_modifyNode (script : Script β) {id : NodeId} {f : Node β → Node β}
    (hid : ∀ n, (f n).id = n.id) (hf : nodes ≤ id.raw ∨ ∀ n, (f n).before nodes = n.before nodes) :
    (script.modifyNode id f).sight.before graphs nodes = script.sight.before graphs nodes := by
  have hsame : ∀ n : Node β, (if n.id = id then f n else n).id = n.id := by
    intro n
    split
    · exact hid n
    · rfl
  have hnodes : ((script.modifyNode id f).nodes.filter (·.id.raw < nodes)).map (·.before nodes) =
      (script.nodes.filter (·.id.raw < nodes)).map (·.before nodes) := by
    simp only [modifyNode, List.filter_map, List.map_map, Function.comp_def, hsame]
    refine List.map_congr_left fun n hn => ?_
    split
    · rename_i heq
      rcases hf with hf | hf
      · have hlt : n.id.raw < nodes := by simpa using (List.mem_filter.1 hn).2
        rw [heq] at hlt
        exact absurd hlt (Nat.not_lt.2 hf)
      · exact hf n
    · rfl
  simp only [sight, Sight.before, hnodes]
  rfl

/-- A connection to a node that is not seen is not seen. -/
theorem before_connect (script : Script β) {o : OutputRef} {i : InputRef}
    (h : nodes ≤ o.node.raw ∨ nodes ≤ i.node.raw) :
    (script.connect o i).2.sight.before graphs nodes = script.sight.before graphs nodes := by
  have hout : nodes ≤ o.node.raw ∨ ∀ n : Node β,
      (n.modifyOutput o.index (·.attach i)).before nodes = n.before nodes := by
    refine h.imp_right fun hi n => ?_
    have hlinks := map_modify (fun link : OutputLink =>
        { link with connected := link.connected.filter (·.node.raw < nodes) })
      (f := (·.attach i)) (fun link => ?_) n.outputs o.index
    · simp only [Node.before, Node.modifyOutput, hlinks]
    · unfold OutputLink.attach
      split
      · rfl
      · simp [Nat.not_lt.2 hi]
  have hin : nodes ≤ i.node.raw ∨ ∀ n : Node β,
      (n.modifyInput i.index (·.attach o)).before nodes = n.before nodes := by
    refine h.symm.imp_right fun ho n => ?_
    have hlinks := map_modify (fun link : InputLink =>
        { link with connected := link.connected.filter (·.node.raw < nodes) })
      (f := (·.attach o)) (fun link => ?_) n.inputs i.index
    · simp only [Node.before, Node.modifyInput, hlinks]
    · unfold InputLink.attach
      split
      · rfl
      · simp [Nat.not_lt.2 ho]
  unfold connect
  split
  · split
    · rfl
    · refine (before_modifyNode (script.modifyOutput o (·.attach i))
        (f := (·.modifyInput i.index (·.attach o))) (fun _ => rfl) hin).trans ?_
      exact script.before_modifyNode (f := (·.modifyOutput o.index (·.attach i)))
        (fun _ => rfl) hout
  · rfl

/-- A binding of or to a node that is not seen is not seen. -/
theorem before_connectValue {next : Script β} {ref : ValueLinkRef} {cell : NodeId}
    (h : nodes ≤ ref.node.raw ∨ nodes ≤ cell.raw) (done : script.connectValue ref cell = .ok next) :
    next.sight.before graphs nodes = script.sight.before graphs nodes := by
  obtain ⟨-, rfl⟩ := connectValue_eq_ok.1 done
  refine before_modifyNode _ (fun _ => rfl) (h.imp_right fun hc n => ?_)
  have hlinks := map_modify (fun link : ValueLink =>
      { link with bound := link.bound.filter (·.raw < nodes) })
    (f := (·.attach cell)) (fun link => ?_) n.links ref.index
  · simp only [Node.before, Node.modifyLink, hlinks]
  · simp [ValueLink.attach, Nat.not_lt.2 hc]

/-- What is gone and was not seen makes no difference. -/
theorem before_without (script : Script β) {gone : List GraphId} {lost : List NodeId}
    (hg : ∀ id ∈ gone, graphs ≤ id.raw) (hn : ∀ id ∈ lost, nodes ≤ id.raw) :
    (script.without gone lost).sight.before graphs nodes = script.sight.before graphs nodes := by
  have both {α ι : Type} [DecidableEq ι] (ref : α → ι) (raw : ι → Nat) {bound : Nat} {out : List ι}
      (hout : ∀ id ∈ out, bound ≤ raw id) (l : List α) :
      (l.filter (ref · ∉ out)).filter (fun a => raw (ref a) < bound) =
        l.filter fun a => raw (ref a) < bound := by
    rw [List.filter_filter]
    refine List.filter_congr fun a _ => ?_
    by_cases hlt : raw (ref a) < bound
    · have hstays : ref a ∉ out := fun ho => absurd hlt (Nat.not_lt.2 (hout _ ho))
      simp [hlt, hstays]
    · simp [hlt]
  have hgraph : ∀ g : Graph,
      (g.stripped gone lost).before graphs nodes = g.before graphs nodes := by
    intro g
    simp only [Graph.before, Graph.stripped, both (fun id => id) GraphId.raw hg,
      both (fun id => id) NodeId.raw hn]
  have hcells : ∀ id ∈ script.cellsAmong lost, nodes ≤ id.raw :=
    fun id hid => hn id (mem_cellsAmong.1 hid).1
  have hnode : ∀ n : Node β,
      (n.stripped lost (script.cellsAmong lost)).before nodes = n.before nodes := by
    intro n
    simp only [Node.before, Node.stripped, List.map_map, Function.comp_def,
      both InputRef.node NodeId.raw hn, both OutputRef.node NodeId.raw hn,
      both (fun id => id) NodeId.raw hcells]
  have hgraphs : ((script.without gone lost).graphs.filter (·.id.raw < graphs)).map
      (·.before graphs nodes) =
        (script.graphs.filter (·.id.raw < graphs)).map (·.before graphs nodes) := by
    rw [without, List.filter_map, List.map_map, ← both Graph.id GraphId.raw hg script.graphs]
    exact List.map_congr_left fun g _ => hgraph g
  have hnodes : ((script.without gone lost).nodes.filter (·.id.raw < nodes)).map
      (·.before nodes) = (script.nodes.filter (·.id.raw < nodes)).map (·.before nodes) := by
    rw [without, List.filter_map, List.map_map, ← both Node.id NodeId.raw hn script.nodes]
    exact List.map_congr_left fun n _ => hnode n
  have htyped : ∀ type, ((Keyed.get? (script.without gone lost).byType type).getD []).filter
      (·.raw < nodes) = ((Keyed.get? script.byType type).getD []).filter (·.raw < nodes) := by
    intro type
    rw [without, Keyed.get?_map]
    rcases Keyed.get? script.byType type with _ | ids
    · rfl
    · exact both (fun id => id) NodeId.raw hn ids
  simp only [sight, Sight.before, hgraphs, hnodes, htyped]

end Script

end FlowScript
