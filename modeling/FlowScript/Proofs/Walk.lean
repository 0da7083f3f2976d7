import FlowScript.Proofs.Inventory
import FlowScript.Proofs.Removal
import FlowScript.Proofs.Search

/-!
# Walking down the graphs

A walk takes a graph off a stack, lists it and puts on the stack what the graph lists, until the
stack is empty. Nothing keeps it from going on for ever, or from listing a graph twice, but that the
graphs form a tree: there it lists the subtree of the graph that it starts from, in one round for
each graph (`listsFirst`). Backwards the subtree is the order in which a graph is dismantled, and
when it is the turn of a graph, nothing within it is left (`Arena.dismantles`).
-/

namespace FlowScript

variable {β : Type}

namespace Script

/-- A walk from a stack of graphs that comes to its end: in how many rounds it does, and what it
lists. Nothing bounds the rounds. -/
inductive Walks (script : Script β) : Nat → List GraphId → List GraphId → Prop where
  | done : Walks script 0 [] []
  | live {id : GraphId} {graph : Graph} {rounds : Nat} {stack listed : List GraphId}
      (found : script.graph? id = some graph)
      (rest : Walks script rounds (graph.subGraphs ++ stack) listed) :
      Walks script (rounds + 1) (id :: stack) (id :: listed)
  | gone {id : GraphId} {rounds : Nat} {stack listed : List GraphId}
      (missing : script.graph? id = none) (rest : Walks script rounds stack listed) :
      Walks script (rounds + 1) (id :: stack) listed

/-- Whatever is on the stack below a graph, a walk lists the subtree of the graph first. -/
def ListsFirst (script : Script β) (id : GraphId) : Prop :=
  ∀ {rounds : Nat} {stack listed : List GraphId}, script.Walks rounds stack listed →
    script.Walks ((script.subtree id).length + rounds) (id :: stack) (script.subtree id ++ listed)

variable {script : Script β}

/-! ## Coming to an end -/

/-- A bound that leaves room for all rounds does not matter. -/
theorem Walks.walk_eq {rounds : Nat} {stack listed : List GraphId}
    (h : script.Walks rounds stack listed) :
    ∀ fuel, rounds ≤ fuel → script.walk fuel stack = listed := by
  induction h with
  | done =>
    intro fuel _
    cases fuel <;> rfl
  | live found rest ih =>
    intro fuel hle
    obtain ⟨fuel, rfl⟩ := Nat.exists_eq_add_of_le' (Nat.zero_lt_of_lt hle)
    rw [walk, found]
    exact congrArg _ (ih fuel (Nat.le_of_succ_le_succ hle))
  | gone missing rest ih =>
    intro fuel hle
    obtain ⟨fuel, rfl⟩ := Nat.exists_eq_add_of_le' (Nat.zero_lt_of_lt hle)
    rw [walk, missing]
    exact ih fuel (Nat.le_of_succ_le_succ hle)

theorem Walks.of_subGraphs : ∀ {subs : List GraphId}, (∀ sub ∈ subs, script.ListsFirst sub) →
    ∀ {rounds : Nat} {stack listed : List GraphId}, script.Walks rounds stack listed →
      script.Walks ((subs.flatMap script.subtree).length + rounds) (subs ++ stack)
        (subs.flatMap script.subtree ++ listed)
  | [], _, rounds, stack, listed, hw => by
    rw [List.flatMap_nil, List.length_nil, Nat.zero_add]
    exact hw
  | sub :: subs, h, rounds, stack, listed, hw => by
    rw [List.forall_mem_cons] at h
    have hrest := h.1 (of_subGraphs h.2 hw)
    rw [List.flatMap_cons, List.length_append, Nat.add_assoc, List.append_assoc]
    exact hrest

theorem listsFirst (h : Nesting script.graphs) {graph : Graph} (hg : graph ∈ script.graphs) :
    script.ListsFirst graph.id := by
  -- The induction goes up the tree and leaves the rest of the stack open.
  refine h.bottom_up (P := script.ListsFirst) (fun outer ho ih rounds stack listed hw => ?_) graph hg
  rw [subtree_eq h ho, List.length_cons, Nat.add_right_comm]
  exact .live (h.find?_eq ho) (.of_subGraphs ih hw)

/-- A walk from a graph comes to its end, and it has no more rounds than there are graphs. -/
theorem Arena.walks (h : script.Arena) (id : GraphId) :
    ∃ rounds ≤ script.graphs.length, script.Walks rounds [id] (script.subtree id) := by
  by_cases hlive : id ∈ script.graphs.map (·.id)
  · obtain ⟨graph, hg, rfl⟩ := List.mem_map.1 hlive
    have hw := listsFirst h.nesting hg .done
    rw [List.append_nil] at hw
    refine ⟨_, ?_, hw⟩
    exact h.nesting.atMost hlive _ (nodup_subtree h.nesting hg)
      fun b hb => (mem_subtree h.nesting hlive b).1 hb
  · have hmissing : script.graph? id = none := by
      rw [← Option.not_isSome_iff_eq_none]
      exact fun hsome => hlive (containsGraph_iff.1 hsome)
    rw [subtree_of_not_live hlive]
    -- The one round that finds nothing has room because there is a root.
    refine ⟨1, ?_, .gone hmissing .done⟩
    obtain ⟨root, hroot, -⟩ := h.root_mem
    exact List.length_pos_of_mem hroot

theorem Arena.nodup_subtree (h : script.Arena) (id : GraphId) : (script.subtree id).Nodup := by
  by_cases hlive : id ∈ script.graphs.map (·.id)
  · obtain ⟨graph, hg, rfl⟩ := List.mem_map.1 hlive
    exact Script.nodup_subtree h.nesting hg
  · rw [subtree_of_not_live hlive]
    exact .nil

/-! ## Backwards -/

theorem mem_of_split {l before after : List GraphId} {outer : GraphId}
    (hs : l.reverse = before ++ outer :: after) : outer ∈ l := by
  rw [← List.mem_reverse, hs]
  exact List.mem_append_right _ List.mem_cons_self

/-- Backwards a graph comes after all that lies within it. -/
theorem Arena.inner_before (h : script.Arena) {id outer inner : GraphId}
    {before after : List GraphId} (hs : (script.subtree id).reverse = before ++ outer :: after)
    (hw : Within script.graphs outer inner) (hne : inner ≠ outer) : inner ∈ before := by
  have houter := mem_of_split hs
  have hlive : id ∈ script.graphs.map (·.id) := ((mem_subtree_iff h.nesting).1 houter).live
  have hinner : inner ∈ before ++ outer :: after := by
    rw [← hs, List.mem_reverse, mem_subtree h.nesting hlive]
    exact ((mem_subtree h.nesting hlive outer).1 houter).trans hw
  refine (List.mem_append.1 hinner).resolve_right fun hlate => ?_
  -- What follows a graph backwards was before it, so that it does not lie within it.
  obtain ⟨graph, hg, rfl⟩ := List.mem_map.1 hlive
  have hordered := List.pairwise_reverse.2 (ordered_subtree h.nesting hg)
  rw [hs, List.pairwise_append, List.pairwise_cons] at hordered
  exact hordered.2.1.1 inner ((List.mem_cons.1 hlate).resolve_left hne) hw

theorem removeGraphs_append : ∀ (ids ids' : List GraphId) (script : Script β),
    removeGraphs (ids ++ ids') script = removeGraphs ids script >>= removeGraphs ids'
  | [], _, _ => rfl
  | id :: ids, ids', script => by
    rw [List.cons_append, removeGraphs, removeGraphs, bind_assoc]
    exact bind_congr fun emptied => removeGraphs_append ids ids' _

/-- A graph is dismantled without a stop, and when it is the turn of a graph, that graph is still
there and all that lay within it is gone. -/
theorem Arena.dismantles (h : script.Arena) {graph : Graph} (hg : graph ∈ script.graphs)
    (hroot : graph.id ≠ rootGraph) {before after : List GraphId} {outer : GraphId}
    (hs : (script.subtree graph.id).reverse = before ++ outer :: after) :
    ∃ halfway rest parent, removeGraphs before script = .ok halfway
      ∧ removeGraphs (outer :: after) halfway = .ok rest ∧ graph.parent = some parent
      ∧ script.removeGraph graph.id = .ok (rest.modifyGraph parent (·.removeSubGraph graph.id))
      ∧ outer ∈ halfway.graphs.map (·.id)
      ∧ ∀ inner, Within script.graphs outer inner → inner ≠ outer →
        inner ∉ halfway.graphs.map (·.id) := by
  obtain ⟨halfway, hhalf⟩ := h.filed.removeGraphs_ok before
  obtain ⟨hfiled, hstems, -⟩ := filed_removeGraphs before h.filed hhalf
  obtain ⟨rest, hrest⟩ := hfiled.removeGraphs_ok (outer :: after)
  obtain ⟨parent, hp⟩ := h.exists_parent hg hroot
  have hids : halfway.graphs.map (·.id) = (script.graphs.map (·.id)).filter (· ∉ before) := by
    have hmap := congrArg (List.map Graph.id) hstems
    rw [List.map_map, List.map_map] at hmap
    rw [List.filter_map]
    exact hmap
  refine ⟨halfway, rest, parent, hhalf, hrest, hp, ?_, ?_, fun inner hw hne hleft => ?_⟩
  · have hfound : script.graph? graph.id = some graph := h.nesting.find?_eq hg
    have hall : removeGraphs (script.subtree graph.id).reverse script = .ok rest := by
      rw [hs, removeGraphs_append, hhalf]
      exact hrest
    rw [Script.removeGraph, if_neg hroot, hfound]
    dsimp only
    rw [hall, hp]
    rfl
  · have honce := List.nodup_reverse.2 (h.nodup_subtree graph.id)
    rw [hs, List.nodup_append] at honce
    have hlive := (mem_subtree_iff h.nesting).1 (mem_of_split hs)
    rw [hids, List.mem_filter]
    refine ⟨?_, decide_eq_true fun hb => honce.2.2 outer hb outer List.mem_cons_self rfl⟩
    exact h.nesting.live_of_within hlive.live ((under_iff h.nesting).1 hlive).2
  · rw [hids, List.mem_filter] at hleft
    exact of_decide_eq_true hleft.2 (h.inner_before hs hw hne)

variable [Behavior β] {placed : NodeBuilder β → Prop}

/-- In every script that a host can come by, a walk from a graph comes to its end, whatever bounds
it, if it is given that many rounds, and it never needs more than there are graphs. It lists the
graph and then, one after another, what walks from the graphs that it lists list; nothing if the
graph is gone, nothing twice, and from the root on every graph. Backwards it lists a graph after all
that lies within it, and so a graph is removed: when it is the turn of a graph, it is still there
and nothing else is left within it. -/
theorem Reachable.walks_down (h : script.Reachable placed) :
    (∀ id, ∃ rounds ≤ script.graphs.length, script.Walks rounds [id] (script.subtree id)
        ∧ ∀ fuel, rounds ≤ fuel → script.walk fuel [id] = script.subtree id)
      ∧ (∀ graph ∈ script.graphs,
        script.subtree graph.id = graph.id :: graph.subGraphs.flatMap script.subtree)
      ∧ (∀ id, id ∉ script.graphs.map (·.id) → script.subtree id = [])
      ∧ (∀ id, (script.subtree id).Nodup)
      ∧ (script.subtree rootGraph).Perm (script.graphs.map (·.id))
      ∧ (∀ id before outer after, (script.subtree id).reverse = before ++ outer :: after →
        ∀ inner, Within script.graphs outer inner → inner ≠ outer → inner ∈ before)
      ∧ ∀ graph ∈ script.graphs, graph.id ≠ rootGraph → ∀ before outer after,
        (script.subtree graph.id).reverse = before ++ outer :: after → ∃ halfway rest parent,
          removeGraphs before script = .ok halfway
            ∧ removeGraphs (outer :: after) halfway = .ok rest ∧ graph.parent = some parent
            ∧ script.removeGraph graph.id = .ok (rest.modifyGraph parent (·.removeSubGraph graph.id))
            ∧ outer ∈ halfway.graphs.map (·.id)
            ∧ ∀ inner, Within script.graphs outer inner → inner ≠ outer →
              inner ∉ halfway.graphs.map (·.id) := by
  have ha := h.arena
  refine ⟨fun id => ?_, fun graph hg => subtree_eq ha.nesting hg,
    fun id hgone => subtree_of_not_live hgone, ha.nodup_subtree, ha.perm_subtree,
    fun id before outer after hs inner hw hne => ha.inner_before hs hw hne,
    fun graph hg hroot before outer after hs => ha.dismantles hg hroot hs⟩
  obtain ⟨rounds, hle, hw⟩ := ha.walks id
  exact ⟨rounds, hle, hw, hw.walk_eq⟩

/-- How to come by graphs that are older than some that are listed before them. -/
def planting : List (Edit Standard) :=
  [.addGraph rootGraph "trunk", .addGraph ⟨1⟩ "limb", .addGraph rootGraph "shrub",
    .addGraph ⟨1⟩ "twig", .addGraph ⟨2⟩ "leaf", .addNode ⟨5⟩ Standard.startNode,
    .addNode ⟨2⟩ Standard.branchNode, .connect ⟨⟨0⟩, 0⟩ ⟨⟨1⟩, 0⟩]

/-- A script of graphs three deep. -/
def arbor : Script Standard := planting.foldl Script.edit (withRootName "garden")

/-- The walk goes down to the leaf before it comes to the twig and the shrub. The leaf is removed
before the limb, and the limb before the trunk. -/
theorem walks_down_of_arbor : arbor.subtree rootGraph = [⟨0⟩, ⟨1⟩, ⟨2⟩, ⟨5⟩, ⟨4⟩, ⟨3⟩]
    ∧ (∃ rounds ≤ 6, arbor.Walks rounds [rootGraph] [⟨0⟩, ⟨1⟩, ⟨2⟩, ⟨5⟩, ⟨4⟩, ⟨3⟩])
    ∧ arbor.subtree ⟨6⟩ = []
    ∧ ∃ halfway rest, removeGraphs [⟨4⟩, ⟨5⟩] arbor = .ok halfway
      ∧ removeGraphs [⟨2⟩, ⟨1⟩] halfway = .ok rest
      ∧ arbor.removeGraph ⟨1⟩ = .ok (rest.modifyGraph rootGraph (·.removeSubGraph ⟨1⟩))
      ∧ ⟨2⟩ ∈ halfway.graphs.map (·.id) ∧ ⟨5⟩ ∉ halfway.graphs.map (·.id) := by
  have hr : arbor.Reachable fun _ => True := by
    refine .edits (.fresh "garden") fun change _ => ?_
    cases change <;> trivial
  obtain ⟨hwalks, -, hgone, -, -, -, hremoved⟩ := hr.walks_down
  have hall : arbor.subtree rootGraph = [⟨0⟩, ⟨1⟩, ⟨2⟩, ⟨5⟩, ⟨4⟩, ⟨3⟩] := by decide +kernel
  obtain ⟨rounds, hle, hw, -⟩ := hwalks rootGraph
  rw [hall] at hw
  obtain ⟨halfway, rest, parent, hhalf, hrest, hp, hdone, hlimb, hleaf⟩ :=
    hremoved ⟨⟨1⟩, "trunk", some rootGraph, [⟨2⟩, ⟨4⟩], []⟩ (by decide +kernel) (by decide)
      [⟨4⟩, ⟨5⟩] ⟨2⟩ [⟨1⟩] (by decide +kernel)
  obtain rfl := Option.some.inj hp
  have hlive : ⟨⟨2⟩, "limb", some ⟨1⟩, [⟨5⟩], [⟨1⟩]⟩ ∈ arbor.graphs := by decide +kernel
  have hwithin : Within arbor.graphs ⟨2⟩ ⟨5⟩ := .listed .refl hlive List.mem_cons_self
  exact ⟨hall, ⟨rounds, hle, hw⟩, hgone ⟨6⟩ (by decide +kernel), halfway, rest, hhalf, hrest, hdone,
    hlimb, hleaf ⟨5⟩ hwithin (by decide)⟩

end Script

end FlowScript
