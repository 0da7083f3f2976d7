import FlowScript.Proofs.Search
import FlowScript.Proofs.Sight

/-!
# Taking edits back

Disconnecting takes back a connection and unbinding takes back a binding, exactly
(`disconnect_connect`, `disconnectValue_connectValue`). A node that was added and then connected and
bound in any way is removed without a trace, and so is a graph that was added and then furnished
with graphs, nodes and links, also across its border (`Reachable.undone`): what was there before has
lower ids, and nothing of it is seen to change. This takes that no value link lists an id that is
given out only then (`Issued`), since the removal of a cell takes it off every link.
-/

namespace FlowScript

variable {β : Type}

/-- The edit connects or binds one of certain nodes. -/
def Edit.Joins (inside : NodeId → Prop) : Edit β → Prop
  | .connect o i => inside o.node ∨ inside i.node
  | .connectByName source _ target _ => inside source ∨ inside target
  | .connectValue ref cell => inside ref.node ∨ inside cell
  | .connectValueByName node _ cell => inside node ∨ inside cell
  | _ => False

theorem Edit.Joins.places {inside : NodeId → Prop} {change : Edit β} (h : change.Joins inside)
    (placed : NodeBuilder β → Prop) : change.Places placed := by
  cases change with
  | addNode graph builder => exact h.elim
  | _ => trivial

namespace Script

/-- What comes of a script if graphs and nodes are added within one of its graphs, and nodes within
it are connected and bound to any others. -/
inductive Furnished (graph : GraphId) (start : Script β) : Script β → Prop where
  | start : Furnished graph start start
  | graph {script : Script β} (parent : GraphId) (name : String)
      (within : parent ∈ script.subtree graph) (furnished : Furnished graph start script) :
      Furnished graph start (script.edit (.addGraph parent name))
  | node {script : Script β} (home : GraphId) (builder : NodeBuilder β)
      (within : home ∈ script.subtree graph) (made : builder.Made)
      (furnished : Furnished graph start script) :
      Furnished graph start (script.edit (.addNode home builder))
  | joined {script : Script β} (change : Edit β)
      (joins : change.Joins fun id => script.inSubtree graph id = true)
      (furnished : Furnished graph start script) : Furnished graph start (script.edit change)

/-! ## Links -/

theorem modifyLink_modifyLink (script : Script β) (ref : ValueLinkRef)
    (f g : ValueLink → ValueLink) :
    (script.modifyLink ref f).modifyLink ref g = script.modifyLink ref (g ∘ f) := by
  simp only [modifyLink, modifyNode, List.map_map]
  congr 1
  refine List.map_congr_left fun n _ => ?_
  by_cases h : n.id = ref.node
  · simp [h, Node.modifyLink, List.modify_modify_eq]
  · simp [h]

theorem filter_ne_concat {α : Type} [DecidableEq α] {l : List α} {a : α} (h : a ∉ l) :
    (l ++ [a]).filter (· ≠ a) = l := by
  have hkept : ∀ b ∈ l, decide (b ≠ a) = true := fun b hb =>
    decide_eq_true (ne_of_mem_of_not_mem hb h)
  rw [List.filter_append, List.filter_eq_self.2 hkept]
  simp

theorem eq_of_unwired {script script' : Script β} (h : script'.unwired = script.unwired)
    (hnodes : script'.nodes = script.nodes) : script' = script := by
  simp only [unwired, Script.mk.injEq] at h
  obtain ⟨hgraphs, -, htypes, hnextGraph, hnextNode⟩ := h
  obtain ⟨graphs, nodes, byType, nextGraph, nextNode⟩ := script'
  obtain rfl : graphs = _ := hgraphs
  obtain rfl : nodes = _ := hnodes
  obtain rfl : byType = _ := htypes
  obtain rfl : nextGraph = _ := hnextGraph
  obtain rfl : nextNode = _ := hnextNode
  rfl

/-- A connection that was made is taken back. -/
theorem disconnect_connect {script : Script β} (ha : script.Arena) {o : OutputRef} {i : InputRef}
    (h : (script.connect o i).1 = true) :
    (script.connect o i).2.disconnect o i = (true, script) := by
  have hfree : script.Free o i := by
    by_contra hn
    rw [connect_of_not_free hn] at h
    cases h
  obtain ⟨-, ht, hs⟩ := wiring_connect hfree
  obtain ⟨hany, ht', hs'⟩ := (script.connect o i).2.wiring_disconnect o i
  have hunwired : ((script.connect o i).2.disconnect o i).2.unwired = script.unwired :=
    (unwired_disconnect _ o i).trans (script.unwired_connect o i)
  have hnodes : ((script.connect o i).2.disconnect o i).2.nodes = script.nodes := by
    refine nodes_eq_of_wiring ha.filed.nodup_nodes (congrArg Script.nodes hunwired :)
      (funext fun o' => ?_) (funext fun i' => ?_)
    · rw [ht', ht]
      split
      · rename_i heq
        rw [heq]
        exact filter_ne_concat hfree.2.2.1
      · rfl
    · rw [hs', hs]
      split
      · rename_i heq
        rw [heq]
        exact filter_ne_concat hfree.2.2.2
      · rfl
  refine Prod.ext (hany.2 (.inl ?_)) (eq_of_unwired hunwired hnodes)
  rw [ht, if_pos rfl]
  exact List.mem_append_right _ List.mem_cons_self

/-- A binding that was made is taken back. -/
theorem disconnectValue_connectValue {script next : Script β} (ha : script.Arena)
    {ref : ValueLinkRef} {cell : NodeId} (h : script.connectValue ref cell = .ok next) :
    next.disconnectValue ref (some cell) = (1, script) := by
  obtain ⟨⟨-, -, link, -, -, hl, hfree, -, -⟩, rfl⟩ := connectValue_eq_ok.1 h
  have hbound : (script.modifyLink ref (·.attach cell)).link? ref = some (link.attach cell) := by
    rw [link?_modifyLink, if_pos rfl, hl, Option.map_some]
  have hself : (link.attach cell).detach cell = link := by
    rw [ValueLink.detach, ValueLink.attach, filter_ne_concat hfree]
  have hback : (script.modifyLink ref (·.attach cell)).modifyLink ref (·.detach cell) = script := by
    rw [modifyLink_modifyLink]
    refine ha.modifyLink_eq_self fun link' hl' => ?_
    obtain rfl : link' = link := Option.some.inj (hl'.symm.trans hl)
    exact hself
  have hheld : cell ∈ (link.attach cell).bound := List.mem_append_right _ List.mem_cons_self
  rw [disconnectValue, hbound]
  dsimp only
  rw [hback, if_pos hheld]

/-! ## What joins -/

theorem ids_withNode (script : Script β) (graph : GraphId) (builder : NodeBuilder β) :
    (script.withNode graph builder).graphs.map (·.id) = script.graphs.map (·.id) :=
  map_where (g := Graph.id) (f := (·.addNode ⟨script.nextNode⟩)) (fun _ => rfl) (·.id = graph)
    script.graphs

/-- What comes of an edit that connects or binds one of certain nodes: nothing, a connection or a
binding. -/
inductive JoinedTo (inside : NodeId → Prop) (script : Script β) : Script β → Prop where
  | refused : JoinedTo inside script script
  | connected {o : OutputRef} {i : InputRef} (touches : inside o.node ∨ inside i.node) :
      JoinedTo inside script (script.connect o i).2
  | bound {ref : ValueLinkRef} {cell : NodeId} {next : Script β}
      (touches : inside ref.node ∨ inside cell) (done : script.connectValue ref cell = .ok next) :
      JoinedTo inside script next

theorem joinedTo_edit {inside : NodeId → Prop} (script : Script β) {change : Edit β}
    (h : change.Joins inside) : JoinedTo inside script (script.edit change) := by
  cases change with
  | connect o i => exact .connected h
  | connectByName source output target input =>
    refine unlessRefused_keeps .refused fun next hn => ?_
    obtain ⟨made, hm, rfl⟩ := map_eq_ok.1 hn
    obtain ⟨o, -, hm⟩ := bind_eq_ok.1 hm
    obtain ⟨i, -, hm⟩ := bind_eq_ok.1 hm
    obtain rfl := Except.ok.inj hm
    exact .connected (o := ⟨source, o⟩) (i := ⟨target, i⟩) h
  | connectValue ref cell => exact unlessRefused_keeps .refused fun next hn => .bound h hn
  | connectValueByName node name cell =>
    refine unlessRefused_keeps .refused fun next hn => ?_
    obtain ⟨index, -, hn⟩ := bind_eq_ok.1 hn
    refine .bound ?_ hn
    exact h
  | _ => exact h.elim

namespace JoinedTo

variable {inside : NodeId → Prop} {script next : Script β} (h : JoinedTo inside script next)

include h

theorem disjoined_eq : next.disjoined = script.disjoined := by
  cases h with
  | refused => rfl
  | connected touches => exact disjoined_of_unwired (script.unwired_connect _ _)
  | bound touches done => exact disjoined_connectValue done

/-- What is joined to nodes that are not seen is not seen. -/
theorem before_eq {graphs nodes : Nat} (hin : ∀ id, inside id → nodes ≤ id.raw) :
    next.sight.before graphs nodes = script.sight.before graphs nodes := by
  cases h with
  | refused => rfl
  | connected touches => exact script.before_connect (touches.imp (hin _) (hin _))
  | bound touches done => exact before_connectValue (touches.imp (hin _) (hin _)) done

end JoinedTo

/-! ## New cells -/

/-- Value links list only ids that have been given out. -/
def Issued (script : Script β) : Prop := ∀ ref, ∀ id ∈ script.bound ref, id.raw < script.nextNode

/-- Of the nodes that are numbered from one on, value links of the nodes before it list cells
only. -/
def NewCells (script : Script β) (nodes : Nat) : Prop :=
  ∀ ref, ref.node.raw < nodes → ∀ id ∈ script.bound ref, nodes ≤ id.raw → script.isCell id = true

theorem Grounded.issued {script : Script β} (h : script.Grounded) (hf : script.Filed) :
    script.Issued := by
  intro ref id hid
  obtain ⟨node, hn, -⟩ := isCell_iff.1 (h.cells ref id hid)
  exact hf.raw_lt (live_of_node? hn)

theorem Issued.newCells {script : Script β} (h : script.Issued) :
    script.NewCells script.nextNode :=
  fun ref _ id hid hle => absurd (h ref id hid) (Nat.not_lt.2 hle)

/-- Only the value links of the new node list something else than before. -/
theorem bound_withNode (script : Script β) (graph : GraphId) (builder : NodeBuilder β)
    {ref : ValueLinkRef} (h : ref.node ≠ ⟨script.nextNode⟩) :
    (script.withNode graph builder).bound ref = script.bound ref := by
  rw [bound, link?, node?_withNode, if_neg h.symm, Option.or_none]
  rfl

namespace NewCells

variable {script next : Script β} {nodes : Nat} (h : script.NewCells nodes)

include h

theorem withNode (hn : nodes ≤ script.nextNode) (graph : GraphId) (builder : NodeBuilder β) :
    (script.withNode graph builder).NewCells nodes := by
  intro ref hr id hid hle
  have hold : ref.node ≠ ⟨script.nextNode⟩ := by
    intro hnew
    rw [hnew] at hr
    exact absurd hr (Nat.not_lt.2 hn)
  rw [script.bound_withNode graph builder hold] at hid
  exact isCell_withNode (h ref hr id hid hle) graph builder

/-- What is bound is a cell. -/
theorem joined (hcell : ∀ id node, script.node? id = some node → (node.isValueNode = true ↔
    node.valueType.isSome = true)) {inside : NodeId → Prop} (hj : JoinedTo inside script next) :
    next.NewCells nodes := by
  cases hj with
  | refused => exact h
  | connected touches =>
    have hu := script.unwired_connect ‹OutputRef› ‹InputRef›
    intro ref hr id hid hle
    rw [bound, link?_of_unwired hu] at hid
    rw [isCell_of_members (members_of_unwired hu)]
    exact h ref hr id hid hle
  | @bound ref cell _ touches done =>
    obtain ⟨⟨node, type, link, hn, ht, hl, -⟩, rfl⟩ := connectValue_eq_ok.1 done
    have hfound : script.isCell cell = true :=
      isCell_iff.2 ⟨node, hn, (hcell cell node hn).2 (by rw [ht, Option.isSome_some])⟩
    intro ref' hr id hid hle
    rw [isCell_of_members (script.members_modifyLink ref (f := (·.attach cell)) fun _ => rfl)]
    rw [bound_attach hl] at hid
    split at hid
    · rename_i heq
      rcases List.mem_append.1 hid with hid | hid
      · exact h ref (heq ▸ hr) id hid hle
      · rwa [List.mem_singleton.1 hid]
    · exact h ref' hr id hid hle

/-- Once the new nodes are gone, no value link lists one of them. -/
theorem bound_without {lost : List NodeId}
    (hlost : ∀ id ∈ script.nodes.map (·.id), nodes ≤ id.raw → id ∈ lost) (gone : List GraphId)
    (ref : ValueLinkRef) : ∀ id ∈ (script.without gone lost).bound ref, id.raw < nodes := by
  intro id hid
  rw [Script.bound_without] at hid
  split at hid
  · cases hid
  · rename_i hstays
    obtain ⟨hid, hkept⟩ := List.mem_filter.1 hid
    rw [decide_eq_true_eq, mem_cellsAmong] at hkept
    obtain ⟨link, hl, -⟩ := link?_of_mem_bound hid
    obtain ⟨owner, ho, -⟩ := Option.bind_eq_some_iff.1 hl
    by_contra hnew
    have hold : ref.node.raw < nodes := Nat.not_le.1 fun hle => hstays (hlost _ (live_of_node? ho) hle)
    have hcell := h ref hold id hid (Nat.not_lt.1 hnew)
    obtain ⟨node, hn, -⟩ := isCell_iff.1 hcell
    exact hkept ⟨hlost _ (live_of_node? hn) (Nat.not_lt.1 hnew), hcell⟩

end NewCells

/-! ## Within a new graph -/

/-- The graphs and nodes that are numbered from a graph and from a node on are those within this
graph. -/
structure Enclosed (script : Script β) (graph : GraphId) (nodes : Nat) : Prop where
  live : graph ∈ script.graphs.map (·.id)
  inner : ∀ id ∈ script.graphs.map (·.id), graph.raw ≤ id.raw → Within script.graphs graph id
  homes : ∀ m ∈ script.members, graph.raw ≤ m.graph.raw ↔ nodes ≤ m.id.raw
  next : nodes ≤ script.nextNode

theorem ids_withGraph (script : Script β) (parent : GraphId) (name : String) :
    (script.withGraph parent name).graphs.map (·.id) =
      script.graphs.map (·.id) ++ [⟨script.nextGraph⟩] := by
  have hids := map_where (g := Graph.id) (f := (·.addSubGraph ⟨script.nextGraph⟩)) (fun _ => rfl)
    (·.id = parent) script.graphs
  rw [withGraph, List.map_append]
  exact congrArg (· ++ [(⟨script.nextGraph⟩ : GraphId)]) hids

/-- A graph that was just added has nothing within it. -/
theorem Arena.enclosed {script : Script β} (h : script.Arena) (parent : GraphId) (name : String) :
    (script.withGraph parent name).Enclosed ⟨script.nextGraph⟩ script.nextNode where
  live := by
    rw [ids_withGraph]
    exact List.mem_append_right _ List.mem_cons_self
  inner id hid hle := by
    rw [ids_withGraph, List.mem_append, List.mem_singleton] at hid
    rcases hid with hid | rfl
    · exact absurd (h.room id hid) (Nat.not_lt.2 hle)
    · exact .refl
  homes m hm := by
    have hroom := h.room _ (h.filed.housed m hm)
    have hbelow := h.filed.below m hm
    exact iff_of_false (Nat.not_le.2 hroom) (Nat.not_le.2 hbelow)
  next := Nat.le_refl _

namespace Enclosed

variable {script : Script β} {graph : GraphId} {nodes : Nat} (h : script.Enclosed graph nodes)

include h

theorem of_disjoined {next : Script β} (hd : next.disjoined = script.disjoined) :
    next.Enclosed graph nodes := by
  have hm := members_of_disjoined hd
  have hg : next.graphs = script.graphs := (congrArg Script.graphs hd :)
  have hn : next.nextNode = script.nextNode := (congrArg Script.nextNode hd :)
  exact ⟨hg ▸ h.live, hg ▸ h.inner, hm ▸ h.homes, hn ▸ h.next⟩

/-- What is in the subtree is numbered from the graph on, and so are its nodes. -/
theorem le_of_mem_subtree (ha : script.Arena) {id : GraphId} (hid : id ∈ script.subtree graph) :
    graph.raw ≤ id.raw :=
  ha.nesting.le_of_within ((mem_subtree ha.nesting h.live id).1 hid)

theorem le_of_inSubtree (ha : script.Arena) {id : NodeId} (hid : script.inSubtree graph id = true) :
    nodes ≤ id.raw := by
  rw [inSubtree, Option.any_eq_true] at hid
  obtain ⟨node, hn, hid⟩ := hid
  have hle := h.le_of_mem_subtree ha (of_decide_eq_true hid)
  rw [← id_of_node? hn]
  exact (h.homes _ (node?_member hn)).1 hle

theorem withGraph (ha : script.Arena) {parent : GraphId} (hp : parent ∈ script.subtree graph)
    (name : String) : (script.withGraph parent name).Enclosed graph nodes where
  live := by
    rw [ids_withGraph]
    exact List.mem_append_left _ h.live
  inner id hid hle := by
    let grown : Graph → Graph := fun g =>
      if g.id = parent then g.addSubGraph ⟨script.nextGraph⟩ else g
    have hgrown : ∀ g ∈ script.graphs, grown g ∈ (script.withGraph parent name).graphs :=
      fun g hg => List.mem_append_left _ (List.mem_map_of_mem hg)
    have hmono : ∀ {a b : GraphId}, Within script.graphs a b →
        Within (script.withGraph parent name).graphs a b := by
      refine Within.mono fun g hg => ⟨grown g, hgrown g hg, ?_, ?_⟩ <;> simp only [grown] <;> split
      · rfl
      · rfl
      · exact List.subset_append_left _ _
      · exact List.Subset.refl _
    rw [ids_withGraph, List.mem_append, List.mem_singleton] at hid
    rcases hid with hid | rfl
    · exact hmono (h.inner id hid hle)
    · -- The new graph is listed by its parent.
      have hwithin := (mem_subtree ha.nesting h.live parent).1 hp
      obtain ⟨outer, ho, rfl⟩ := List.mem_map.1 (ha.nesting.live_of_within h.live hwithin)
      have hself : grown outer = outer.addSubGraph ⟨script.nextGraph⟩ := if_pos rfl
      have hlisted := hgrown outer ho
      rw [hself] at hlisted
      refine .listed ?_ hlisted (List.mem_append_right _ List.mem_cons_self)
      exact hmono hwithin
  homes := h.homes
  next := h.next

theorem withNode (ha : script.Arena) {home : GraphId} (hh : home ∈ script.subtree graph)
    (builder : NodeBuilder β) : (script.withNode home builder).Enclosed graph nodes where
  live := by
    rw [ids_withNode]
    exact h.live
  inner id hid hle := by
    rw [ids_withNode] at hid
    refine Within.mono (fun g hg => ⟨_, List.mem_map_of_mem hg, ?_, ?_⟩) (h.inner id hid hle) <;>
      split
    · rfl
    · rfl
    · exact List.Subset.refl _
    · exact List.Subset.refl _
  homes := by
    have hmembers : (script.withNode home builder).members =
        script.members ++ [⟨⟨script.nextNode⟩, home, builder.shape⟩] := by
      simp only [Script.withNode, members, List.map_append, List.map_cons, List.map_nil]
      rfl
    rw [hmembers, List.forall_mem_append, List.forall_mem_singleton]
    exact ⟨h.homes, iff_of_true (h.le_of_mem_subtree ha hh) h.next⟩
  next := Nat.le_succ_of_le h.next

end Enclosed

section reachable

variable [Behavior β] {script : Script β} (h : script.Reachable NodeBuilder.Made)

include h

/-- Nothing is seen of what a reachable script neither has nor lists. -/
theorem Reachable.before_eq {graphs nodes : Nat}
    (hg : ∀ id ∈ script.graphs.map (·.id), id.raw < graphs)
    (hn : ∀ id ∈ script.nodes.map (·.id), id.raw < nodes)
    (hb : ∀ ref, ∀ id ∈ script.bound ref, id.raw < nodes) :
    script.sight.before graphs nodes = script.sight :=
  h.tidy.before_eq h.arena hg hn hb

theorem Reachable.before_now (issued : script.Issued) :
    script.sight.before script.nextGraph script.nextNode = script.sight :=
  h.before_eq h.arena.room (fun _ => h.arena.filed.raw_lt) issued

theorem Reachable.of_removeNode {id : NodeId} {removed : Node β × Script β}
    (hr : script.removeNode id = .ok removed) : removed.2.Reachable NodeBuilder.Made := by
  have hedit := h.edited (.removeNode id) trivial
  rwa [Script.edit, hr] at hedit

theorem Reachable.of_addNode {graph : GraphId} {builder : NodeBuilder β}
    {added : NodeId × Script β} (made : builder.Made)
    (ha : script.addNode graph builder = .ok added) : added.2.Reachable NodeBuilder.Made := by
  have hedit := h.edited (.addNode graph builder) made
  rwa [Script.edit, ha] at hedit

/-- Joining nodes adds and removes nothing, and what does not have these nodes looks the same. -/
theorem Reachable.joined {inside : NodeId → Prop} {changes : List (Edit β)} {nodes : Nat}
    (hj : ∀ change ∈ changes, change.Joins inside) (new : ∀ id, inside id → nodes ≤ id.raw)
    (hc : script.NewCells nodes) (graphs : Nat) :
    (changes.foldl Script.edit script).Reachable NodeBuilder.Made
      ∧ (changes.foldl Script.edit script).NewCells nodes
      ∧ (changes.foldl Script.edit script).disjoined = script.disjoined
      ∧ (changes.foldl Script.edit script).sight.before graphs nodes =
        script.sight.before graphs nodes := by
  refine List.foldlRecOn changes Script.edit (motive := fun s => s.Reachable NodeBuilder.Made
    ∧ s.NewCells nodes ∧ s.disjoined = script.disjoined
    ∧ s.sight.before graphs nodes = script.sight.before graphs nodes) ⟨h, hc, rfl, rfl⟩ ?_
  rintro s ⟨hr, hc, hd, hb⟩ change hmem
  have hstep := s.joinedTo_edit (hj change hmem)
  exact ⟨hr.edited change ((hj change hmem).places _),
    hc.joined (fun _ _ hn => hr.declaresCell hn) hstep, hstep.disjoined_eq.trans hd,
    (hstep.before_eq new).trans hb⟩

/-- A node that was added and then joined to others is removed without a trace. -/
theorem Reachable.removeNode_joined (issued : script.Issued) {graph : GraphId}
    {builder : NodeBuilder β} {added : NodeId × Script β} (made : builder.Made)
    (ha : script.addNode graph builder = .ok added) {changes : List (Edit β)}
    (hj : ∀ change ∈ changes, change.Joins (· = added.1)) : ∃ removed,
      (changes.foldl Script.edit added.2).removeNode added.1 = .ok removed
        ∧ removed.2.sight = script.sight ∧ removed.2.nextGraph = script.nextGraph := by
  have hstart := h.of_addNode made ha
  have hmembers := members_addNode ha
  obtain ⟨-, rfl⟩ := addNode_eq_ok ha
  have hnow := (script.before_withNode graph builder (Nat.le_refl _)).trans (h.before_now issued)
  obtain ⟨hr, hc, hd, hb⟩ := hstart.joined hj
    (fun id hid => Nat.le_of_eq (congrArg NodeId.raw hid).symm)
    (issued.newCells.withNode (Nat.le_refl _) graph builder) script.nextGraph
  rw [hnow] at hb
  generalize changes.foldl Script.edit (script.withNode graph builder) = s at hr hc hd hb
  have hids : s.nodes.map (·.id) = script.nodes.map (·.id) ++ [⟨script.nextNode⟩] := by
    have hmap := congrArg (List.map Member.id) ((members_of_disjoined hd).trans hmembers)
    simp only [members, List.map_map, List.map_append, List.map_cons, List.map_nil] at hmap
    exact hmap
  have hlive : (⟨script.nextNode⟩ : NodeId) ∈ s.nodes.map (·.id) := by
    rw [hids]
    exact List.mem_append_right _ List.mem_cons_self
  obtain ⟨node, hn, hid⟩ := List.mem_map.1 hlive
  have hremove := hr.tidy.removeNode_eq hn
  have hleft := hr.of_removeNode hremove
  rw [hid] at hremove hleft
  refine ⟨_, hremove, ?_, (congrArg Script.nextGraph hd :)⟩
  have hout : ∀ lost ∈ [(⟨script.nextNode⟩ : NodeId)], script.nextNode ≤ lost.raw :=
    List.forall_mem_singleton.2 (Nat.le_refl _)
  rw [← hb, ← s.before_without (List.forall_mem_nil _) hout]
  refine (hleft.before_eq (fun id hin => ?_) (fun id hin => ?_) fun ref =>
    hc.bound_without (fun id hin hle => ?_) [] ref).symm
  · rw [mem_graphs_without] at hin
    have hgraphs : s.graphs.map (·.id) = script.graphs.map (·.id) :=
      (congrArg (fun s' => s'.graphs.map (·.id)) hd).trans (script.ids_withNode graph builder)
    exact h.arena.room id (hgraphs ▸ hin.1)
  · rw [mem_nodes_without, hids, List.mem_append] at hin
    exact h.arena.filed.raw_lt (hin.1.resolve_right hin.2)
  · rw [hids, List.mem_append] at hin
    exact hin.resolve_left fun hold => absurd (h.arena.filed.raw_lt hold) (Nat.not_lt.2 hle)

/-- A graph with all that is numbered from it on is removed without a trace. -/
theorem Reachable.removeGraph_enclosed {graph : GraphId} {nodes : Nat}
    (he : script.Enclosed graph nodes) (hc : script.NewCells nodes) (hroot : graph ≠ rootGraph) :
    ∃ rest, script.removeGraph graph = .ok rest
      ∧ rest.sight = script.sight.before graph.raw nodes := by
  have ha := h.arena
  obtain ⟨g, hg, rfl⟩ := List.mem_map.1 he.live
  have hremove := h.tidy.removeGraph_eq ha hg hroot
  have hleft := h.of_removeGraph hremove
  rw [ha.lopped_eq hg hroot] at hremove hleft
  have hlost : ∀ id ∈ script.nodes.map (·.id), nodes ≤ id.raw →
      id ∈ script.residents (script.subtree g.id) := by
    intro id hlive hle
    obtain ⟨node, hn, rfl⟩ := List.mem_map.1 hlive
    have hm : node.member ∈ script.members := List.mem_map_of_mem hn
    rw [ha.filed.mem_residents_iff hn, mem_subtree ha.nesting he.live]
    exact he.inner _ (ha.filed.housed _ hm) ((he.homes _ hm).2 hle)
  refine ⟨_, hremove, ?_⟩
  rw [← script.before_without (fun id => he.le_of_mem_subtree ha) fun id hid => ?_]
  · refine (hleft.before_eq (fun id hin => ?_) (fun id hin => ?_) (hc.bound_without hlost _)).symm
    · rw [mem_graphs_without, mem_subtree ha.nesting he.live] at hin
      exact Nat.not_le.1 fun hle => hin.2 (he.inner id hin.1 hle)
    · rw [mem_nodes_without] at hin
      exact Nat.not_le.1 fun hle => hin.2 (hlost id hin.1 hle)
  · obtain ⟨node, hn, hhome, rfl⟩ := mem_residents.1 hid
    exact (he.homes _ (List.mem_map_of_mem hn)).1 (he.le_of_mem_subtree ha hhome)

omit h in
/-- While a graph is furnished, what there was before is not seen to change. -/
theorem Furnished.enclosed {graph : GraphId} {start : Script β} {nodes : Nat}
    (hs : start.Reachable NodeBuilder.Made) (he : start.Enclosed graph nodes)
    (hc : start.NewCells nodes) (hf : Furnished graph start script) :
    script.Reachable NodeBuilder.Made ∧ script.Enclosed graph nodes ∧ script.NewCells nodes
      ∧ script.sight.before graph.raw nodes = start.sight.before graph.raw nodes := by
  induction hf with
  | start => exact ⟨hs, he, hc, rfl⟩
  | @graph script parent name within furnished ih =>
    obtain ⟨hr, he, hc, hb⟩ := ih
    have ha := hr.arena
    have hlive := ha.nesting.live_of_within he.live
      ((mem_subtree ha.nesting he.live parent).1 within)
    have hedit : script.edit (.addGraph parent name) = script.withGraph parent name := by
      rw [Script.edit, addGraph_eq_ok.2 ⟨containsGraph_iff.2 hlive, rfl⟩]
      rfl
    have hr' := hr.edited (.addGraph parent name) trivial
    rw [hedit] at hr' ⊢
    exact ⟨hr', he.withGraph ha within name, hc,
      (script.before_withGraph parent name (Nat.le_of_lt (ha.room _ he.live))).trans hb⟩
  | @node script home builder within made furnished ih =>
    obtain ⟨hr, he, hc, hb⟩ := ih
    have ha := hr.arena
    have hlive := ha.nesting.live_of_within he.live ((mem_subtree ha.nesting he.live home).1 within)
    have hedit : script.edit (.addNode home builder) = script.withNode home builder := by
      have hadd : script.addNode home builder =
          .ok (⟨script.nextNode⟩, script.withNode home builder) :=
        if_pos (containsGraph_iff.2 hlive)
      rw [Script.edit, hadd]
      rfl
    have hr' := hr.edited (.addNode home builder) made
    rw [hedit] at hr' ⊢
    exact ⟨hr', he.withNode ha within builder, hc.withNode he.next home builder,
      (script.before_withNode home builder he.next).trans hb⟩
  | @joined script change joins furnished ih =>
    obtain ⟨hr, he, hc, hb⟩ := ih
    have hstep := script.joinedTo_edit joins
    exact ⟨hr.edited change (joins.places _), he.of_disjoined hstep.disjoined_eq,
      hc.joined (fun _ _ hn => hr.declaresCell hn) hstep,
      (hstep.before_eq fun id => he.le_of_inSubtree hr.arena).trans hb⟩

/-- Every edit that adds to a reachable script is taken back by the edit that removes: a connection
and a binding exactly, and if value links list only ids that have been given out, a node that was
joined to others and a graph that was furnished without a trace but for the counters that ids are
taken from. Where bindings name cells, only such ids are listed. -/
theorem Reachable.undone :
    (∀ (o : OutputRef) (i : InputRef), (script.connect o i).1 = true →
        (script.connect o i).2.disconnect o i = (true, script))
      ∧ (∀ (ref : ValueLinkRef) (cell : NodeId) (next : Script β),
        script.connectValue ref cell = .ok next →
        next.disconnectValue ref (some cell) = (1, script))
      ∧ (script.Issued → ∀ (graph : GraphId) (builder : NodeBuilder β) (id : NodeId)
          (next : Script β) (changes : List (Edit β)), builder.Made →
        script.addNode graph builder = .ok (id, next) →
        (∀ change ∈ changes, change.Joins (· = id)) → ∃ removed,
          (changes.foldl Script.edit next).removeNode id = .ok removed
            ∧ removed.2.sight = script.sight ∧ removed.2.nextGraph = script.nextGraph)
      ∧ (script.Issued → ∀ (parent : GraphId) (name : String) (graph : GraphId)
          (next furnished : Script β),
        script.addGraph parent name = .ok (graph, next) →
        Furnished graph next furnished → ∃ rest,
          furnished.removeGraph graph = .ok rest ∧ rest.sight = script.sight)
      ∧ (script.Grounded → script.Issued) := by
  refine ⟨fun o i => disconnect_connect h.arena,
    fun ref cell next => disconnectValue_connectValue h.arena,
    fun issued graph builder id next changes made ha hj => h.removeNode_joined issued made ha hj,
    fun issued parent name graph next furnished ha hf => ?_, fun hg => hg.issued h.arena.filed⟩
  have hedit := h.edited (.addGraph parent name) trivial
  rw [Script.edit, ha] at hedit
  obtain ⟨hlive, heq⟩ := addGraph_eq_ok.1 ha
  obtain ⟨rfl, rfl⟩ := Prod.mk.inj heq
  obtain ⟨hr, he, hc, hb⟩ := hf.enclosed hedit (h.arena.enclosed parent name) issued.newCells
  have hroot : (⟨script.nextGraph⟩ : GraphId) ≠ rootGraph := by
    intro hroot
    have hroom := h.arena.room _ h.arena.nesting.root
    rw [← hroot] at hroom
    exact Nat.lt_irrefl _ hroom
  obtain ⟨rest, hremove, hsight⟩ := hr.removeGraph_enclosed he hc hroot
  refine ⟨rest, hremove, hsight.trans (hb.trans ?_)⟩
  exact (script.before_withGraph parent name (Nat.le_refl _)).trans (h.before_now issued)

end reachable

/-- A script with a graph in a graph and a branch that is not joined to anything. -/
def plot : Script Standard := yard.edit (.addNode rootGraph Standard.branchNode)

theorem reachable_plot : plot.Reachable NodeBuilder.Declared :=
  reachable_yard.edited (.addNode rootGraph Standard.branchNode)
    (Standard.places_declared (coreType "Branch") [] _ rfl)

/-- The script with a new graph in the shed. -/
def extended : Script Standard := plot.withGraph ⟨1⟩ "annexe"

/-- The new graph gets a graph, a branch and a cell, and both are joined to what is outside. -/
def outfit : List (Edit Standard) :=
  [.addGraph ⟨3⟩ "chest", .addNode ⟨4⟩ Standard.branchNode,
    .addNode ⟨3⟩ (Standard.cell "Boolean" (.bool false)),
    .connect ⟨⟨0⟩, 0⟩ ⟨⟨5⟩, 0⟩, .connectValue ⟨⟨5⟩, 0⟩ ⟨2⟩, .connectValue ⟨⟨4⟩, 0⟩ ⟨6⟩]

theorem furnished_extended : Furnished ⟨3⟩ extended (outfit.foldl Script.edit extended) := by
  simp only [outfit, List.foldl_cons, List.foldl_nil]
  have hempty : Furnished ⟨3⟩ extended extended := .start
  have hchest := hempty.graph ⟨3⟩ "chest" (by decide +kernel)
  have hbranch := hchest.node ⟨4⟩ Standard.branchNode (by decide +kernel)
    (Standard.places_made (coreType "Branch") [] _ rfl)
  have hcell := hbranch.node ⟨3⟩ (Standard.cell "Boolean" (.bool false)) (by decide +kernel)
    (.value _ _ _)
  have hpulse := hcell.joined (.connect ⟨⟨0⟩, 0⟩ ⟨⟨5⟩, 0⟩) (.inr (by decide +kernel))
  have hread := hpulse.joined (.connectValue ⟨⟨5⟩, 0⟩ ⟨2⟩) (.inl (by decide +kernel))
  exact hread.joined (.connectValue ⟨⟨4⟩, 0⟩ ⟨6⟩) (.inr (by decide +kernel))

/-- What was done to the script is taken back. -/
theorem undone_of_plot :
    (plot.connect ⟨⟨3⟩, 0⟩ ⟨⟨4⟩, 0⟩).2.disconnect ⟨⟨3⟩, 0⟩ ⟨⟨4⟩, 0⟩ = (true, plot)
      ∧ (∃ bound, plot.connectValue ⟨⟨4⟩, 0⟩ ⟨2⟩ = .ok bound
        ∧ bound.disconnectValue ⟨⟨4⟩, 0⟩ (some ⟨2⟩) = (1, plot))
      ∧ (∃ next removed, plot.addNode ⟨2⟩ Standard.branchNode = .ok (⟨5⟩, next)
        ∧ ([.connect ⟨⟨0⟩, 0⟩ ⟨⟨5⟩, 0⟩, .connect ⟨⟨5⟩, 1⟩ ⟨⟨5⟩, 0⟩,
          .connectValue ⟨⟨5⟩, 0⟩ ⟨2⟩].foldl Script.edit next).removeNode ⟨5⟩ = .ok removed
        ∧ removed.2.sight = plot.sight)
      ∧ (outfit.foldl Script.edit extended).targets ⟨⟨0⟩, 0⟩ = [⟨⟨1⟩, 0⟩, ⟨⟨3⟩, 0⟩, ⟨⟨5⟩, 0⟩]
      ∧ ∃ rest, (outfit.foldl Script.edit extended).removeGraph ⟨3⟩ = .ok rest
        ∧ rest.sight = plot.sight := by
  have made : plot.Reachable NodeBuilder.Made := reachable_plot.mono fun _ hb => hb.made
  obtain ⟨hconnect, hbind, hnode, hgraph, hissued⟩ := Reachable.undone made
  have issued : plot.Issued := hissued reachable_plot.grounded
  have hadded : plot.addNode ⟨2⟩ Standard.branchNode =
      .ok (⟨5⟩, plot.withNode ⟨2⟩ Standard.branchNode) :=
    if_pos (by decide +kernel : plot.containsGraph ⟨2⟩ = true)
  have hbound : ∃ bound, plot.connectValue ⟨⟨4⟩, 0⟩ ⟨2⟩ = .ok bound :=
    exists_ok_of_isSome (by decide +kernel)
  obtain ⟨bound, hb⟩ := hbound
  obtain ⟨removed, hr, hsight, -⟩ := hnode issued ⟨2⟩ Standard.branchNode ⟨5⟩ _
    [.connect ⟨⟨0⟩, 0⟩ ⟨⟨5⟩, 0⟩, .connect ⟨⟨5⟩, 1⟩ ⟨⟨5⟩, 0⟩, .connectValue ⟨⟨5⟩, 0⟩ ⟨2⟩]
    (Standard.places_made (coreType "Branch") [] _ rfl) hadded (by simp [Edit.Joins])
  exact ⟨hconnect _ _ (by decide +kernel), ⟨bound, hb, hbind _ _ _ hb⟩,
    ⟨_, removed, hadded, hr, hsight⟩, by decide +kernel, hgraph issued ⟨1⟩ "annexe" ⟨3⟩ extended _
      (addGraph_eq_ok.2 ⟨by decide +kernel, rfl⟩) furnished_extended⟩

/-- A script with a copy of the parameters of the postbox, which lists an id that is next. -/
def lodger : Script Standard := (withRootName "root").edit (.addNode rootGraph copyNode)

/-- A cell that is added and removed again has been taken off the value link. -/
theorem not_undone_of_lodger : postbox.Reachable NodeBuilder.Made
    ∧ postbox.link? ⟨⟨0⟩, 0⟩ = some paramLink
    ∧ lodger.Reachable NodeBuilder.Made ∧ ¬ lodger.Issued
    ∧ ∃ next removed, lodger.addNode rootGraph (Standard.cell "Integer" (.int 4)) = .ok (⟨1⟩, next)
      ∧ next.removeNode ⟨1⟩ = .ok removed
      ∧ lodger.bound ⟨⟨0⟩, 0⟩ = [⟨1⟩, ⟨2⟩] ∧ removed.2.bound ⟨⟨0⟩, 0⟩ = [⟨2⟩]
      ∧ removed.2.sight ≠ lodger.sight := by
  have made : (Edit.addNode rootGraph copyNode).Places NodeBuilder.Made := .link _ (.action _ _)
  have hr : lodger.Reachable NodeBuilder.Made := (Reachable.fresh "root").edited _ made
  have hbound : lodger.bound ⟨⟨0⟩, 0⟩ = [⟨1⟩, ⟨2⟩] := by decide +kernel
  refine ⟨reachable_postbox.mono fun _ hb => hb.made, rfl, hr, fun issued => ?_, _, _, rfl, rfl,
    hbound, by decide +kernel, fun hsight => ?_⟩
  · have hlt := issued ⟨⟨0⟩, 0⟩ ⟨1⟩ (by rw [hbound]; exact List.mem_cons_self)
    exact absurd hlt (by decide +kernel)
  · have hnodes := congrArg Sight.nodes hsight
    have hlist := congrArg (fun nodes : List (Node Standard) =>
      nodes.map fun n => n.links.map (·.bound)) hnodes
    exact absurd hlist (by decide +kernel)

end Script

end FlowScript
