import FlowScript.Proofs.Arena
import FlowScript.Proofs.Bindings
import FlowScript.Proofs.Pairing
import FlowScript.Proofs.Recreation
import FlowScript.Proofs.Refusals

/-!
# A script without some of its nodes

Removing a node takes it off every list that can hold it, and what is left is the script without it
(`Tidy.removeNode_eq`): what stays keeps its place and its lists every other entry. A value link is
searched for cells only; a node of another kind stays listed, should there be a link that lists it
(`bound_without_iff`). What is gone in two steps can as well be gone in one (`without_without`), so
that it does not matter in which order nodes are removed (`Tidy.removeNodes_perm`).
-/

namespace FlowScript

variable {β : Type}

/-- The graph without what its lists hold of the given graphs and nodes. -/
def Graph.stripped (graphs : List GraphId) (nodes : List NodeId) (graph : Graph) : Graph :=
  { graph with
    subGraphs := graph.subGraphs.filter (· ∉ graphs)
    nodes := graph.nodes.filter (· ∉ nodes) }

/-- The node without what the lists of its links hold of the given nodes. Value links lose the given
cells. -/
def Node.stripped (nodes cells : List NodeId) (node : Node β) : Node β :=
  { node with
    inputs := node.inputs.map fun link =>
      { link with connected := link.connected.filter (·.node ∉ nodes) }
    outputs := node.outputs.map fun link =>
      { link with connected := link.connected.filter (·.node ∉ nodes) }
    links := node.links.map fun link => { link with bound := link.bound.filter (· ∉ cells) } }

/-- What lies within a graph still does where no graph lists less. -/
theorem Within.mono {graphs graphs' : List Graph}
    (hl : ∀ g ∈ graphs, ∃ g' ∈ graphs', g'.id = g.id ∧ g.subGraphs ⊆ g'.subGraphs) {a b : GraphId}
    (h : Within graphs a b) : Within graphs' a b := by
  induction h with
  | refl => exact .refl
  | listed within live lists ih =>
    obtain ⟨g', hg', hid, hsubs⟩ := hl _ live
    exact .listed (hid ▸ ih) hg' (hsubs lists)

theorem Keyed.keys_adjust {κ α : Type} [DecidableEq κ] (key : κ) (f : α → α) : ∀ m : Keyed κ α,
    keys (adjust m key f) = keys m
  | [] => rfl
  | (k, v) :: m => by
    rw [adjust]
    split
    · rfl
    · exact congrArg (k :: ·) (keys_adjust key f m)

theorem Keyed.adjust_eq_map {κ α : Type} [DecidableEq κ] {key : κ} {f : α → α} : ∀ {m : Keyed κ α},
    (keys m).Nodup → (∀ k v, (k, v) ∈ m → k ≠ key → f v = v) →
      adjust m key f = m.map fun e => (e.1, f e.2)
  | [], _, _ => rfl
  | (k, v) :: m, hn, hf => by
    rw [keys, List.map_cons, List.nodup_cons] at hn
    rw [adjust, List.map_cons]
    split
    · rename_i heq
      have hrest : m.map (fun e => (e.1, f e.2)) = m := by
        refine (List.map_congr_left fun e he => ?_).trans (List.map_id m)
        have hne : e.1 ≠ key := by
          intro h
          refine hn.1 ?_
          rw [heq, ← h]
          exact List.mem_map_of_mem (a := e) he
        exact congrArg (e.1, ·) (hf e.1 e.2 (List.mem_cons_of_mem _ he) hne)
      rw [hrest]
    · rename_i hne
      rw [adjust_eq_map hn.2 fun k v hm => hf k v (List.mem_cons_of_mem _ hm),
        hf k v List.mem_cons_self hne]

namespace Script

/-- The cells among the given nodes. -/
def cellsAmong (script : Script β) (nodes : List NodeId) : List NodeId :=
  nodes.filter script.isCell

/-- The script without the given graphs and nodes. What stays keeps its place, and of the lists that
hold what is gone every other entry; value links lose what is a cell. -/
def without (script : Script β) (graphs : List GraphId) (nodes : List NodeId) : Script β :=
  { script with
    graphs := (script.graphs.filter (·.id ∉ graphs)).map (·.stripped graphs nodes)
    nodes := (script.nodes.filter (·.id ∉ nodes)).map
      (·.stripped nodes (script.cellsAmong nodes))
    byType := script.byType.map fun e => (e.1, e.2.filter (· ∉ nodes)) }

/-- What is filtered out in two steps can as well be filtered out in one. -/
theorem filter_gone {α ι : Type} [DecidableEq ι] (key : α → ι) (l : List α) (gone gone' : List ι) :
    (l.filter (key · ∉ gone)).filter (key · ∉ gone') = l.filter (key · ∉ gone ++ gone') := by
  rw [List.filter_filter]
  refine List.filter_congr fun a _ => ?_
  simp only [List.mem_append, not_or, Bool.decide_and, Bool.and_comm]

theorem filter_none_gone {α ι : Type} [DecidableEq ι] (key : α → ι) (l : List α) :
    l.filter (key · ∉ ([] : List ι)) = l :=
  List.filter_eq_self.2 fun _ _ => decide_eq_true List.not_mem_nil

/-- What is left by its key, if what stays keeps its key. -/
theorem mem_map_filter_gone {α ι : Type} [DecidableEq ι] {key : α → ι} {f : α → α}
    (hkey : ∀ a, key (f a) = key a) {l : List α} {gone : List ι} {i : ι} :
    i ∈ ((l.filter (key · ∉ gone)).map f).map key ↔ i ∈ l.map key ∧ i ∉ gone := by
  simp only [List.map_map, List.mem_map, List.mem_filter, decide_eq_true_eq, Function.comp_apply,
    hkey]
  constructor
  · rintro ⟨a, ⟨ha, hstays⟩, rfl⟩
    exact ⟨⟨a, ha, rfl⟩, hstays⟩
  · rintro ⟨⟨a, ha, rfl⟩, hstays⟩
    exact ⟨a, ⟨ha, hstays⟩, rfl⟩

theorem node?_of_without (script : Script β) (graphs : List GraphId) (nodes : List NodeId)
    (id : NodeId) : (script.without graphs nodes).node? id =
      if id ∈ nodes then none
      else (script.node? id).map (·.stripped nodes (script.cellsAmong nodes)) := by
  have hfound : (script.without graphs nodes).node? id =
      ((script.nodes.filter (·.id ∉ nodes)).find? (·.id = id)).map
        (·.stripped nodes (script.cellsAmong nodes)) := by
    rw [node?, without, List.find?_map]
    rfl
  rw [hfound, List.find?_filter]
  split
  · rename_i hgone
    rw [List.find?_eq_none.2, Option.map_none]
    rintro n - hn
    simp only [decide_eq_true_eq] at hn
    exact hn.1 (hn.2 ▸ hgone)
  · rename_i hstays
    congr 2
    funext n
    by_cases hn : n.id = id
    · simp [hn, hstays]
    · simp [hn]

theorem mem_cellsAmong {script : Script β} {nodes : List NodeId} {id : NodeId} :
    id ∈ script.cellsAmong nodes ↔ id ∈ nodes ∧ script.isCell id = true :=
  List.mem_filter

/-- What stays is a cell if it was one. -/
theorem isCell_without {script : Script β} {graphs : List GraphId} {nodes : List NodeId}
    {id : NodeId} : (script.without graphs nodes).isCell id = true ↔
      id ∉ nodes ∧ script.isCell id = true := by
  rw [isCell, node?_of_without, isCell]
  split
  · rename_i hgone
    exact iff_of_false Bool.false_ne_true fun h => h.1 hgone
  · rename_i hstays
    rw [Option.any_map, and_iff_right hstays]
    rfl

/-- What is gone in two steps can as well be gone in one. -/
theorem without_without (script : Script β) (graphs graphs' : List GraphId)
    (nodes nodes' : List NodeId) : (script.without graphs nodes).without graphs' nodes'
      = script.without (graphs ++ graphs') (nodes ++ nodes') := by
  -- What stays is stripped by the way, which does not change its id.
  have stays {α ι : Type} [DecidableEq ι] (key : α → ι) {f g h : α → α}
      (hkey : ∀ a, key (f a) = key a) (hfg : ∀ a, g (f a) = h a) (l : List α)
      (gone gone' : List ι) :
      ((((l.filter (key · ∉ gone)).map f).filter (key · ∉ gone')).map g)
        = (l.filter (key · ∉ gone ++ gone')).map h := by
    rw [← filter_gone key, List.filter_map, List.map_map]
    simp only [Function.comp_def, hkey, hfg]
  have hgraph (g : Graph) : (g.stripped graphs nodes).stripped graphs' nodes'
      = g.stripped (graphs ++ graphs') (nodes ++ nodes') := by
    simp only [Graph.stripped, filter_gone fun a => a]
  have hcells (id : NodeId) :
      id ∈ script.cellsAmong nodes ++ (script.without graphs nodes).cellsAmong nodes' ↔
        id ∈ script.cellsAmong (nodes ++ nodes') := by
    rw [List.mem_append, mem_cellsAmong, mem_cellsAmong, isCell_without, mem_cellsAmong,
      List.mem_append]
    by_cases hgone : id ∈ nodes <;> simp [hgone]
  have hnode (n : Node β) : (n.stripped nodes (script.cellsAmong nodes)).stripped nodes'
      ((script.without graphs nodes).cellsAmong nodes')
        = n.stripped (nodes ++ nodes') (script.cellsAmong (nodes ++ nodes')) := by
    simp only [Node.stripped, List.map_map, Function.comp_def, filter_gone InputRef.node,
      filter_gone OutputRef.node, filter_gone fun a => a, hcells]
  have htypes : (script.byType.map fun e => (e.1, e.2.filter (· ∉ nodes))).map
      (fun e => (e.1, e.2.filter (· ∉ nodes')))
        = script.byType.map fun e => (e.1, e.2.filter (· ∉ nodes ++ nodes')) := by
    simp only [List.map_map, Function.comp_def, filter_gone fun a => a]
  have hgraphs := stays Graph.id (f := .stripped graphs nodes) (fun _ => rfl) hgraph
    script.graphs graphs graphs'
  have hnodes := stays Node.id (f := .stripped nodes (script.cellsAmong nodes)) (fun _ => rfl) hnode
    script.nodes nodes nodes'
  exact (Script.mk.injEq ..).mpr ⟨hgraphs, hnodes, htypes, rfl, rfl⟩

/-- Only what is gone counts, not in which order. -/
theorem without_congr (script : Script β) {graphs graphs' : List GraphId}
    {nodes nodes' : List NodeId} (hg : ∀ id, id ∈ graphs ↔ id ∈ graphs')
    (hn : ∀ id, id ∈ nodes ↔ id ∈ nodes') :
    script.without graphs nodes = script.without graphs' nodes' := by
  have hcells (id : NodeId) : id ∈ script.cellsAmong nodes ↔ id ∈ script.cellsAmong nodes' := by
    rw [mem_cellsAmong, mem_cellsAmong, hn]
  simp only [without, Graph.stripped, Node.stripped, hg, hn, hcells]

theorem without_nil (script : Script β) : script.without [] [] = script := by
  have hgraph (g : Graph) : g.stripped [] [] = g := by
    simp only [Graph.stripped, filter_none_gone fun a => a]
  have hnode (n : Node β) : n.stripped [] (script.cellsAmong []) = n := by
    rw [cellsAmong, List.filter_nil]
    simp only [Node.stripped, filter_none_gone InputRef.node, filter_none_gone OutputRef.node,
      filter_none_gone fun a => a, List.map_id']
  simp only [without, filter_none_gone Graph.id, filter_none_gone Node.id,
    filter_none_gone fun a => a, hgraph, hnode, List.map_id']

theorem mem_nodes_without {script : Script β} {graphs : List GraphId} {nodes : List NodeId}
    {id : NodeId} : id ∈ (script.without graphs nodes).nodes.map (·.id) ↔
      id ∈ script.nodes.map (·.id) ∧ id ∉ nodes :=
  mem_map_filter_gone (f := Node.stripped nodes (script.cellsAmong nodes)) fun _ => rfl

theorem mem_graphs_without {script : Script β} {graphs : List GraphId} {nodes : List NodeId}
    {id : GraphId} : id ∈ (script.without graphs nodes).graphs.map (·.id) ↔
      id ∈ script.graphs.map (·.id) ∧ id ∉ graphs :=
  mem_map_filter_gone (f := Graph.stripped graphs nodes) fun _ => rfl

/-- No graph comes to lie within another by what is gone. -/
theorem within_of_without {script : Script β} {graphs : List GraphId} {nodes : List NodeId}
    {a b : GraphId} (h : Within (script.without graphs nodes).graphs a b) :
    Within script.graphs a b := by
  refine h.mono fun g hg => ?_
  obtain ⟨old, ho, rfl⟩ := List.mem_map.1 hg
  exact ⟨old, (List.mem_filter.1 ho).1, rfl, List.filter_sublist.subset⟩

theorem targets_without (script : Script β) (graphs : List GraphId) (nodes : List NodeId)
    (o : OutputRef) : (script.without graphs nodes).targets o =
      if o.node ∈ nodes then [] else (script.targets o).filter (·.node ∉ nodes) := by
  rw [targets, output?, node?_of_without, targets, output?]
  split
  · rfl
  · rcases script.node? o.node with _ | n
    · rfl
    · simp only [Option.map_some, Option.bind_some, Node.stripped, List.getElem?_map]
      rcases n.outputs[o.index]? with _ | link <;> rfl

theorem sources_without (script : Script β) (graphs : List GraphId) (nodes : List NodeId)
    (i : InputRef) : (script.without graphs nodes).sources i =
      if i.node ∈ nodes then [] else (script.sources i).filter (·.node ∉ nodes) := by
  rw [sources, input?, node?_of_without, sources, input?]
  split
  · rfl
  · rcases script.node? i.node with _ | n
    · rfl
    · simp only [Option.map_some, Option.bind_some, Node.stripped, List.getElem?_map]
      rcases n.inputs[i.index]? with _ | link <;> rfl

theorem bound_without (script : Script β) (graphs : List GraphId) (nodes : List NodeId)
    (ref : ValueLinkRef) : (script.without graphs nodes).bound ref =
      if ref.node ∈ nodes then []
      else (script.bound ref).filter (· ∉ script.cellsAmong nodes) := by
  rw [bound, link?, node?_of_without, bound, link?]
  split
  · rfl
  · rcases script.node? ref.node with _ | n
    · rfl
    · simp only [Option.map_some, Option.bind_some, Node.stripped, List.getElem?_map]
      rcases n.links[ref.index]? with _ | link <;> rfl

/-- What is read through a value link is what stays. -/
theorem liveBindings_without (script : Script β) (graphs : List GraphId) (nodes : List NodeId)
    (ref : ValueLinkRef) : (script.without graphs nodes).liveBindings ref =
      if ref.node ∈ nodes then [] else (script.liveBindings ref).filter (· ∉ nodes) := by
  rw [liveBindings_eq_filter, liveBindings_eq_filter, bound_without]
  split
  · rfl
  · rw [List.filter_filter, List.filter_filter]
    refine List.filter_congr fun id _ => Bool.eq_iff_iff.2 ?_
    simp only [Bool.and_eq_true, isCell_without, decide_eq_true_eq, mem_cellsAmong, not_and]
    constructor
    · exact fun h => ⟨h.1.1, h.1.2⟩
    · exact fun h => ⟨h, fun hgone => absurd hgone h.1⟩

/-- A value link that stays lists one of the given nodes, though it is no cell. -/
def Clings (script : Script β) (nodes : List NodeId) : Prop :=
  ∃ ref id, ref.node ∉ nodes ∧ id ∈ script.bound ref ∧ id ∈ nodes ∧ script.isCell id = false

theorem Grounded.not_clings {script : Script β} (h : script.Grounded) {nodes : List NodeId} :
    ¬ script.Clings nodes := by
  rintro ⟨ref, id, -, hid, -, hkind⟩
  rw [h.cells ref id hid] at hkind
  cases hkind

/-- Value links lose all that is gone, exactly if they list nothing of it that is no cell. -/
theorem bound_without_iff (script : Script β) (graphs : List GraphId) (nodes : List NodeId) :
    (∀ ref, ref.node ∉ nodes →
      (script.without graphs nodes).bound ref = (script.bound ref).filter (· ∉ nodes))
        ↔ ¬ script.Clings nodes := by
  constructor
  · rintro hall ⟨ref, id, hstays, hid, hgone, hkind⟩
    have hlist := hall ref hstays
    rw [bound_without, if_neg hstays] at hlist
    have hlisted : id ∈ (script.bound ref).filter (· ∉ script.cellsAmong nodes) := by
      refine List.mem_filter.2 ⟨hid, decide_eq_true fun hcell => ?_⟩
      rw [(mem_cellsAmong.1 hcell).2] at hkind
      cases hkind
    rw [hlist, List.mem_filter, decide_eq_true_eq] at hlisted
    exact hlisted.2 hgone
  · intro hnone ref hstays
    rw [bound_without, if_neg hstays]
    refine List.filter_congr fun id hid => ?_
    rw [decide_eq_decide, mem_cellsAmong, not_iff_not, and_iff_left_iff_imp]
    intro hgone
    rw [← Bool.not_eq_false]
    exact fun hkind => hnone ⟨ref, id, hstays, hid, hgone, hkind⟩

/-! ## Nodes -/

/-- Two lists are the same if their elements are, as far as they show and in what they list. -/
theorem ext_of_views {α γ ι : Type} (shown : α → γ) (lists : α → List ι)
    (inj : ∀ a b, shown a = shown b → lists a = lists b → a = b) {l l' : List α}
    (hshown : l'.map shown = l.map shown)
    (hlists : ∀ k : Nat, l'[k]?.elim [] lists = l[k]?.elim [] lists) : l' = l := by
  refine List.ext_getElem? fun k => ?_
  have hat := congrArg (·[k]?) hshown
  have hlist := hlists k
  simp only [List.getElem?_map] at hat
  rcases hl : l[k]? with _ | a <;> rcases hl' : l'[k]? with _ | a' <;> rw [hl, hl'] at hat hlist
  · cases hat
  · cases hat
  · rw [inj a' a (Option.some.inj hat) hlist]

/-- Nodes that look alike but for their control connections are the same if these are. -/
theorem nodes_eq_of_wiring {script script' : Script β} (hn : (script.nodes.map (·.id)).Nodup)
    (hu : script'.nodes.map Node.unwired = script.nodes.map Node.unwired)
    (ht : script'.targets = script.targets) (hs : script'.sources = script.sources) :
    script'.nodes = script.nodes := by
  have hids : script'.nodes.map (·.id) = script.nodes.map (·.id) := by
    have hmap := congrArg (List.map Node.id) hu
    rw [List.map_map, List.map_map] at hmap
    exact hmap
  have hlen : script'.nodes.length = script.nodes.length := by
    have hlen := congrArg List.length hu
    rwa [List.length_map, List.length_map] at hlen
  refine List.ext_getElem hlen fun k hk' hk => ?_
  have halike : script'.nodes[k].unwired = script.nodes[k].unwired := by
    have hat := congrArg (·[k]?) hu
    simpa [hk, hk'] using hat
  have hfind' : script'.node? script'.nodes[k].id = some script'.nodes[k] :=
    find?_of_mem (hids ▸ hn) (List.getElem_mem hk')
  have hfind : script.node? script.nodes[k].id = some script.nodes[k] :=
    find?_of_mem hn (List.getElem_mem hk)
  have hid : script'.nodes[k].id = script.nodes[k].id := (congrArg Node.id halike :)
  generalize script'.nodes[k] = n' at halike hfind' hid
  generalize script.nodes[k] = n at halike hfind hid
  have hinputs : n'.inputs = n.inputs := by
    refine ext_of_views InputLink.clear (·.connected) ?_ (congrArg Node.inputs halike :) fun j => ?_
    · rintro ⟨name, connected⟩ ⟨name', connected'⟩ hname rfl
      exact congrArg (InputLink.mk · connected) (congrArg InputLink.name hname :)
    · have hlist := congrFun hs ⟨n.id, j⟩
      rw [sources, input?, ← hid, hfind', hid, sources, input?, hfind] at hlist
      exact hlist
  have houtputs : n'.outputs = n.outputs := by
    refine ext_of_views OutputLink.clear (·.connected) ?_ (congrArg Node.outputs halike :)
      fun j => ?_
    · rintro ⟨name, connected, active⟩ ⟨name', connected', active'⟩ hname rfl
      obtain ⟨rfl, -, rfl⟩ := OutputLink.mk.inj hname
      rfl
    · have hlist := congrFun ht ⟨n.id, j⟩
      rw [targets, output?, ← hid, hfind', hid, targets, output?, hfind] at hlist
      exact hlist
  have hwired : ∀ m : Node β, { m.unwired with inputs := m.inputs, outputs := m.outputs } = m :=
    fun _ => rfl
  rw [← hwired n', halike, hinputs, houtputs, hwired]

/-- No type is listed twice. -/
def Indexed (script : Script β) : Prop := (Keyed.keys script.byType).Nodup

theorem Indexed.removeNode {script : Script β} (h : script.Indexed) {id : NodeId}
    {removed : Node β × Script β} (hr : script.removeNode id = .ok removed) :
    removed.2.Indexed := by
  obtain ⟨node, -, -, htypes, -⟩ := filing_removeNode hr
  rw [Indexed, htypes, Keyed.keys_adjust]
  exact h

theorem Filed.cellsAmong_single {script : Script β} (h : script.Filed) {node : Node β}
    (hn : node ∈ script.nodes) :
    script.cellsAmong [node.id] = if node.isValueNode then [node.id] else [] := by
  rw [cellsAmong, List.filter_cons, isCell, h.node?_eq hn, Option.any_some, List.filter_nil]

/-- What the removal of a node relies on. -/
structure Tidy (script : Script β) : Prop where
  filed : script.Filed
  paired : script.Paired
  indexed : script.Indexed

namespace Tidy

variable {script : Script β} (h : script.Tidy)

include h

theorem removeNode {id : NodeId} {removed : Node β × Script β}
    (hr : script.removeNode id = .ok removed) : removed.2.Tidy :=
  ⟨h.filed.removeNode hr, h.paired.removeNode hr, h.indexed.removeNode hr⟩

/-- Other graphs do not list a node. -/
theorem graphs_removeNode {node : Node β} (hn : node ∈ script.nodes) :
    (script.graphs.map fun g => if g.id = node.graph then g.removeNode node.id else g)
      = (script.without [] [node.id]).graphs := by
  rw [without, filter_none_gone Graph.id]
  refine List.map_congr_left fun g hg => ?_
  rw [Graph.stripped, filter_none_gone fun a => a]
  split
  · simp [Graph.removeNode]
  · rename_i hne
    have hnone : node.id ∉ g.nodes := by
      rw [h.filed.listed g hg]
      intro hm
      obtain ⟨m, hm, hid⟩ := List.mem_map.1 hm
      obtain ⟨hm, hgraph⟩ := List.mem_filter.1 hm
      obtain rfl := eq_of_key h.filed.nodup hm (List.mem_map_of_mem hn) hid
      exact hne (of_decide_eq_true hgraph).symm
    have hnodes : g.nodes.filter (· ∉ [node.id]) = g.nodes :=
      List.filter_eq_self.2 fun id hid => by simpa using ne_of_mem_of_not_mem hid hnone
    rw [hnodes]

/-- Other types do not list a node. -/
theorem byType_removeNode {node : Node β} (hn : node ∈ script.nodes) :
    Keyed.adjust script.byType node.type (·.filter (· ≠ node.id))
      = (script.without [] [node.id]).byType := by
  have hsame : ∀ ids : List NodeId, ids.filter (· ∉ [node.id]) = ids.filter (· ≠ node.id) :=
    fun ids => List.filter_congr fun id _ => by simp
  simp only [without, hsame]
  refine Keyed.adjust_eq_map h.indexed fun type ids he hne => ?_
  have hids : ids = (script.members.filter (·.shape.type = type)).map (·.id) := by
    have htyped := h.filed.typed type
    rwa [Keyed.get?_of_mem h.indexed he] at htyped
  refine List.filter_eq_self.2 fun id hid => decide_eq_true ?_
  rintro rfl
  rw [hids] at hid
  obtain ⟨m, hm, hid⟩ := List.mem_map.1 hid
  obtain ⟨hm, htype⟩ := List.mem_filter.1 hm
  obtain rfl := eq_of_key h.filed.nodup hm (List.mem_map_of_mem hn) hid
  exact hne (of_decide_eq_true htype).symm

theorem nodes_removeNode {node : Node β} (hn : node ∈ script.nodes) {removed : Node β × Script β}
    (hr : script.removeNode node.id = .ok removed) :
    removed.2.nodes = (script.without [] [node.id]).nodes := by
  have hone : ∀ id : NodeId, id ∉ [node.id] ↔ id ≠ node.id := fun id => by
    rw [List.mem_singleton]
  refine nodes_eq_of_wiring ?_ ?_ (funext fun o => ?_) (funext fun i => ?_)
  · rw [without, List.map_map]
    exact h.filed.nodup_nodes.sublist (List.filter_sublist.map _)
  · obtain ⟨found, hfound, hu⟩ := removeNode_unwired hr
    obtain rfl := Option.some.inj ((h.filed.node?_eq hn).symm.trans hfound)
    have hnodes : removed.2.nodes.map Node.unwired = (script.takeOut node).nodes.map Node.unwired :=
      (congrArg Script.nodes hu :)
    rw [hnodes, nodes_takeOut, without, List.map_map, List.map_map]
    simp only [hone]
    refine List.map_congr_left fun n _ => ?_
    have hlinks : (if node.isValueNode then n.links.map (·.detach node.id) else n.links)
        = (n.stripped [node.id] (script.cellsAmong [node.id])).links := by
      rw [Node.stripped, h.filed.cellsAmong_single hn]
      split
      · simp only [hone]
        rfl
      · simp only [filter_none_gone fun a => a, List.map_id']
    have hmoved : (if node.isValueNode then
        { n with links := n.links.map (·.detach node.id) } else n)
          = { n with links := (n.stripped [node.id] (script.cellsAmong [node.id])).links } := by
      rw [← hlinks]
      split <;> rfl
    simp only [Function.comp, hmoved]
    simp only [Node.unwired, Node.stripped, List.map_map]
    rfl
  · rw [h.paired.targets_removeNode hr, targets_without]
    simp only [List.mem_singleton]
  · rw [h.paired.sources_removeNode hr, sources_without]
    simp only [List.mem_singleton]

/-- The removal of a node leaves the script without it. -/
theorem removeNode_eq {node : Node β} (hn : node ∈ script.nodes) :
    script.removeNode node.id = .ok (node.cleared, script.without [] [node.id]) := by
  have hfound := h.filed.node?_eq hn
  have hr : ∃ removed, script.removeNode node.id = .ok (node.cleared, removed) := by
    rw [Script.removeNode, hfound]
    exact ⟨_, rfl⟩
  obtain ⟨removed, hr⟩ := hr
  obtain ⟨found, hfound', hgraphs, htypes, hnextGraph, hnextNode⟩ := filing_removeNode hr
  obtain rfl := Option.some.inj (hfound.symm.trans hfound')
  have hnodes := h.nodes_removeNode hn hr
  rw [h.graphs_removeNode hn] at hgraphs
  rw [h.byType_removeNode hn] at htypes
  have hsame : removed = script.without [] [node.id] := by
    obtain ⟨graphs, nodes, byType, nextGraph, nextNode⟩ := removed
    obtain rfl : graphs = _ := hgraphs
    obtain rfl : nodes = _ := hnodes
    obtain rfl : byType = _ := htypes
    obtain rfl : nextGraph = _ := hnextGraph
    obtain rfl : nextNode = _ := hnextNode
    rfl
  rw [hr, hsame]

omit h in
/-- Removing nodes one after another leaves the script without them. -/
theorem removeNodes_eq : ∀ {ids : List NodeId} {script : Script β}, script.Tidy → ids.Nodup →
    (∀ id ∈ ids, id ∈ script.nodes.map (·.id)) →
      removeNodes ids script = .ok (script.without [] ids) ∧ (script.without [] ids).Tidy
  | [], script, h, _, _ => by
    rw [removeNodes, without_nil]
    exact ⟨rfl, h⟩
  | id :: ids, script, h, hn, hlive => by
    rw [List.nodup_cons] at hn
    rw [List.forall_mem_cons] at hlive
    obtain ⟨node, hnode, rfl⟩ := List.mem_map.1 hlive.1
    have hr := h.removeNode_eq hnode
    have hleft : ∀ id ∈ ids, id ∈ (script.without [] [node.id]).nodes.map (·.id) := by
      intro id hid
      rw [mem_nodes_without, List.mem_singleton]
      exact ⟨hlive.2 id hid, ne_of_mem_of_not_mem hid hn.1⟩
    have hrest := removeNodes_eq (h.removeNode hr) hn.2 hleft
    rw [without_without] at hrest
    rw [removeNodes, hr]
    exact hrest

omit h in
/-- Nodes can be removed in any order. -/
theorem removeNodes_perm {script : Script β} (h : script.Tidy) {ids order : List NodeId}
    (hn : ids.Nodup) (hlive : ∀ id ∈ ids, id ∈ script.nodes.map (·.id)) (hp : order.Perm ids) :
    removeNodes order script = .ok (script.without [] ids) := by
  have hr := (h.removeNodes_eq (hp.nodup_iff.2 hn) fun id hid => hlive id (hp.mem_iff.1 hid)).1
  rwa [script.without_congr (fun _ => .rfl) fun _ => hp.mem_iff] at hr

end Tidy

end Script

end FlowScript
