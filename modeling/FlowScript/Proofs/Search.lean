import FlowScript.Director.Basic
import FlowScript.Proofs.Preorder

/-!
# Searching a script

A search goes by the index of types and, within a graph, by a walk down the lists of nested graphs.
What it finds can be told without either: every node is looked at, in order of creation, and the
links to parents are followed upwards from its graph (`mem_subtree_iff`, `Arena.mem_find`). An event
that the host fires is looked up from the root, and every graph is under the root, so that the scope
makes no difference (`Arena.eventsNamed_root`).
-/

namespace FlowScript

variable {β : Type}

namespace Script

/-- A graph is under another one if it is that graph or if its parent is under that graph. -/
inductive Under (script : Script β) (outer : GraphId) : GraphId → Prop where
  | here (live : outer ∈ script.graphs.map (·.id)) : Under script outer outer
  | above {graph : Graph} {parent : GraphId} (live : graph ∈ script.graphs)
      (nested : graph.parent = some parent) (under : Under script outer parent) :
      Under script outer graph.id

/-- Whether the value that a property of a node is read with equals another value. -/
def Reads (script : Script β) (id : NodeId) (name : String) (value : Property) : Prop :=
  ∃ held, script.property? id name = some held ∧ held.same value = true

variable {script : Script β}

/-! ## Graphs -/

theorem Under.live {outer inner : GraphId} (h : script.Under outer inner) :
    outer ∈ script.graphs.map (·.id) := by
  induction h with
  | here live => exact live
  | above _ _ _ ih => exact ih

/-- Parents lead up to a graph exactly from where the lists of nested graphs lead down to. -/
theorem under_iff (h : Nesting script.graphs) {outer inner : GraphId} :
    script.Under outer inner ↔ outer ∈ script.graphs.map (·.id)
      ∧ Within script.graphs outer inner := by
  constructor
  · intro hu
    refine ⟨hu.live, ?_⟩
    induction hu with
    | here => exact .refl
    | above live nested _ ih => exact (h.within_iff live nested).2 (.inl ih)
  · rintro ⟨hlive, hw⟩
    induction hw with
    | refl => exact .here hlive
    | listed _ live lists ih =>
      obtain ⟨inner, hi, rfl, hp⟩ := (h.mem_subGraphs live).1 lists
      exact .above hi hp ih

theorem subtree_of_not_live {id : GraphId} (h : id ∉ script.graphs.map (·.id)) :
    script.subtree id = [] := by
  rcases hg : script.graph? id with _ | graph
  · rw [subtree, walk, hg]
    cases script.graphs.length <;> rfl
  · exact absurd (containsGraph_iff.1 (by rw [containsGraph, hg]; rfl)) h

/-- A walk from a graph finds what is under it, and nothing from a graph that is gone. -/
theorem mem_subtree_iff (h : Nesting script.graphs) {outer inner : GraphId} :
    inner ∈ script.subtree outer ↔ script.Under outer inner := by
  rw [under_iff h]
  by_cases hlive : outer ∈ script.graphs.map (·.id)
  · rw [mem_subtree h hlive, and_iff_right hlive]
  · rw [subtree_of_not_live hlive]
    exact iff_of_false List.not_mem_nil fun hu => hlive hu.1

/-! ## Nodes -/

/-- Whether a node is in the subtree of a graph. -/
def inSubtree (script : Script β) (outer : GraphId) (id : NodeId) : Bool :=
  (script.node? id).any (·.graph ∈ script.subtree outer)

namespace Arena

variable (h : script.Arena) (type : TypeId) (name : String) (value : Property)

include h

theorem find_none : script.find type name value none
    = (script.nodes.filter fun node => (script.property? node.id name).any (·.same value)
      && decide (node.type = type)).map (·.id) := by
  rw [find, h.nodesOfType_eq]
  simp only [Option.map_none, Option.all_none, List.filter_filter, Bool.true_and]

/-- What is found within a graph is what is found anywhere and is in its subtree. -/
theorem find_some (outer : GraphId) : script.find type name value (some outer)
    = (script.find type name value none).filter (script.inSubtree outer) := by
  rw [h.find_none, List.filter_map, List.filter_filter, find, h.nodesOfType_eq]
  simp only [Option.map_some, Option.all_some, List.filter_filter]
  refine congrArg _ (List.filter_congr fun node hn => ?_)
  rw [Function.comp, inSubtree, h.node?_eq hn, Option.any_some]
  exact Bool.and_left_comm _ _ _

theorem find_sublist (inside : Option GraphId) :
    (script.find type name value inside).Sublist (script.nodes.map (·.id)) := by
  have hall : (script.find type name value none).Sublist (script.nodes.map (·.id)) := by
    rw [h.find_none]
    exact List.filter_sublist.map _
  rcases inside with _ | outer
  · exact hall
  · rw [h.find_some]
    exact List.filter_sublist.trans hall

variable {type name value}

theorem mem_find {id : NodeId} {inside : Option GraphId} : id ∈ script.find type name value inside ↔
    ∃ node, script.node? id = some node ∧ node.type = type ∧ script.Reads id name value
      ∧ ∀ outer, inside = some outer → script.Under outer node.graph := by
  have hanywhere : id ∈ script.find type name value none ↔ ∃ node, script.node? id = some node
      ∧ node.type = type ∧ script.Reads id name value := by
    rw [h.find_none, List.mem_map]
    simp only [List.mem_filter, Bool.and_eq_true, decide_eq_true_eq, Option.any_eq_true]
    constructor
    · rintro ⟨node, ⟨hn, hread, htype⟩, rfl⟩
      exact ⟨node, h.node?_eq hn, htype, hread⟩
    · rintro ⟨node, hn, htype, hread⟩
      obtain rfl : node.id = id := by simpa using List.find?_some hn
      exact ⟨node, ⟨List.mem_of_find?_eq_some hn, hread, htype⟩, rfl⟩
  rcases inside with _ | outer
  · simpa using hanywhere
  rw [h.find_some, List.mem_filter, hanywhere, inSubtree]
  constructor
  · rintro ⟨⟨node, hn, htype, hread⟩, hin⟩
    rw [hn, Option.any_some, decide_eq_true_eq, mem_subtree_iff h.nesting] at hin
    exact ⟨node, hn, htype, hread, fun _ heq => Option.some.inj heq ▸ hin⟩
  · rintro ⟨node, hn, htype, hread, hunder⟩
    refine ⟨⟨node, hn, htype, hread⟩, ?_⟩
    rw [hn, Option.any_some, decide_eq_true_eq, mem_subtree_iff h.nesting]
    exact hunder outer rfl

theorem inSubtree_root {id : NodeId} (hid : id ∈ script.nodes.map (·.id)) :
    script.inSubtree rootGraph id = true := by
  obtain ⟨node, hn, rfl⟩ := List.mem_map.1 hid
  rw [inSubtree, h.node?_eq hn, Option.any_some, decide_eq_true_eq, h.mem_subtree_root]
  exact h.filed.housed _ (List.mem_map_of_mem hn)

/-- From the root on, the scope makes no difference. -/
theorem eventsNamed_root (name : String) (scope : Scope) :
    script.eventsNamed name scope rootGraph
      = script.find remoteEventType eventNameProperty (.string name) none := by
  cases scope with
  | everywhere => rfl
  | nested =>
    rw [eventsNamed, h.find_some, List.filter_eq_self]
    exact fun id hid => h.inSubtree_root ((h.find_sublist _ _ _ none).subset hid)

end Arena

variable [Behavior β] {placed : NodeBuilder β → Prop}

/-- In every script that a host can come by, a search finds exactly the nodes of the type whose
property is read with the value and, if it is limited to a graph, whose graph is that graph or leads
to it from parent to parent, and none if that graph is gone; it lists them once each, in order of
creation. So the search within a graph is the search everywhere, filtered by the subtree. An event
that the host fires is started at the same nodes whatever the scope: they are lined up behind what
was injected before, and their number is returned. -/
theorem Reachable.search (h : script.Reachable placed) :
    (∀ type name value inside,
      (script.find type name value inside).Sublist (script.nodes.map (·.id))
        ∧ (script.find type name value inside).Pairwise (·.raw < ·.raw)
        ∧ (script.find type name value inside).Nodup
        ∧ ∀ id, id ∈ script.find type name value inside ↔ ∃ node, script.node? id = some node
          ∧ node.type = type ∧ script.Reads id name value
          ∧ ∀ outer, inside = some outer → script.Under outer node.graph)
      ∧ (∀ type name value outer,
        script.find type name value (some outer)
            = (script.find type name value none).filter (script.inSubtree outer)
          ∧ (outer ∉ script.graphs.map (·.id) → script.find type name value (some outer) = []))
      ∧ (∀ outer inner, inner ∈ script.subtree outer ↔ script.Under outer inner)
      ∧ ∀ director : Director β, director.script = script → ∀ name scope,
        let fresh : List Activation :=
          (script.find remoteEventType eventNameProperty (.string name) none).map
            fun id => { node := id, input := none }
        director.triggerEvent name scope
          = (fresh.length, { director with injected := director.injected ++ fresh }) := by
  have ha := h.arena
  refine ⟨fun type name value inside => ?_, fun type name value outer => ?_,
    fun outer inner => mem_subtree_iff ha.nesting, fun director hd name scope => ?_⟩
  · have hsub := ha.find_sublist type name value inside
    have hsorted : (script.nodes.map (·.id)).Pairwise (·.raw < ·.raw) :=
      List.pairwise_map.2 ha.sorted_nodes
    exact ⟨hsub, hsorted.sublist hsub, ha.nodup_nodes.sublist hsub, fun id => ha.mem_find⟩
  · refine ⟨ha.find_some type name value outer, fun hgone => ?_⟩
    refine List.eq_nil_iff_forall_not_mem.2 fun id hid => ?_
    obtain ⟨node, -, -, -, hunder⟩ := ha.mem_find.1 hid
    exact hgone (hunder outer rfl).live
  · subst hd
    rw [Director.triggerEvent, ha.eventsNamed_root]
    exact Prod.ext (List.length_map _).symm rfl

/-- How to come by a graph in a graph with an event in each and a node whose condition is bound to a
cell next door, and by the id of a graph that is gone. -/
def furnishing : List (Edit Standard) :=
  [.addGraph rootGraph "hall", .addGraph ⟨1⟩ "closet", .addGraph rootGraph "attic",
    .addNode ⟨2⟩ Standard.remoteEventNode, .addNode rootGraph Standard.remoteEventNode,
    .addNode ⟨1⟩ Standard.remoteEventNode, .addNode ⟨2⟩ Standard.branchNode,
    .addNode ⟨1⟩ (Standard.cell "Boolean" (.bool true)), .connectValue ⟨⟨3⟩, 0⟩ ⟨4⟩,
    .setProperty ⟨0⟩ eventNameProperty (.string "go"),
    .setProperty ⟨1⟩ eventNameProperty (.string "go"), .removeGraph ⟨3⟩]

/-- A script whose events are spread over nested graphs. -/
def house : Script Standard := furnishing.foldl Script.edit (withRootName "root")

/-- Two events answer to a name and one of them is inside; a condition is found by its cell. -/
theorem search_of_house :
    house.find remoteEventType eventNameProperty (.string "go") none = [⟨0⟩, ⟨1⟩]
      ∧ house.find remoteEventType eventNameProperty (.string "go") (some ⟨1⟩) = [⟨0⟩]
      ∧ house.find remoteEventType eventNameProperty (.string "go") (some ⟨3⟩) = []
      ∧ house.Reads ⟨3⟩ "Condition" (.bool true) ∧ house.Under ⟨1⟩ ⟨2⟩
      ∧ ∀ scope, (Director.triggerEvent { script := house } "go" scope).1 = 2 := by
  have hr : house.Reachable fun _ => True := by
    refine .edits (.fresh "root") fun change _ => ?_
    cases change <;> trivial
  obtain ⟨hfound, hscoped, hunder, hfired⟩ := hr.search
  have hall : house.find remoteEventType eventNameProperty (.string "go") none = [⟨0⟩, ⟨1⟩] := by
    decide +kernel
  obtain ⟨hinside, -⟩ := hscoped remoteEventType eventNameProperty (.string "go") ⟨1⟩
  obtain ⟨-, hgone⟩ := hscoped remoteEventType eventNameProperty (.string "go") ⟨3⟩
  obtain ⟨-, -, -, hbranch⟩ := hfound (coreType "Branch") "Condition" (.bool true) (some ⟨1⟩)
  obtain ⟨-, -, -, hreads, -⟩ := (hbranch ⟨3⟩).1 (by decide +kernel)
  refine ⟨hall, ?_, hgone (by decide +kernel), hreads, (hunder ⟨1⟩ ⟨2⟩).1 (by decide +kernel), ?_⟩
  · rw [hinside, hall]
    decide +kernel
  · intro scope
    rw [hfired { script := house } rfl "go" scope, hall]
    rfl

end Script

end FlowScript
