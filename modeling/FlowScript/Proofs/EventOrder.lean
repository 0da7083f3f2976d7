import FlowScript.Proofs.Renumbering

/-!
# Events of a script that is loaded again

Events of a name are found in order of creation, and a script is loaded again graph by graph. So the
events that are found in it then are those that were found before, regrouped by their graphs
(`Script.Reachable.events_again`).
-/

namespace FlowScript

variable {β : Type}

/-! ## Regrouping -/

section

variable {α κ : Type}

theorem map_inj_on {f : α → κ} : ∀ {l l' : List α}, (∀ a ∈ l, ∀ b ∈ l', f a = f b → a = b) →
    (l.map f = l'.map f ↔ l = l')
  | [], [], _ => iff_of_true rfl rfl
  | [], _ :: _, _ => iff_of_false nofun nofun
  | _ :: _, [], _ => iff_of_false nofun nofun
  | a :: l, b :: l', h => by
    have hrest := @map_inj_on f l l' fun x hx y hy =>
      h x (List.mem_cons_of_mem _ hx) y (List.mem_cons_of_mem _ hy)
    rw [List.map_cons, List.map_cons, List.cons.injEq, List.cons.injEq, hrest]
    exact and_congr_left' ⟨h a List.mem_cons_self b List.mem_cons_self, congrArg f⟩

variable [DecidableEq κ] {key : α → κ}

theorem filter_append_of_pairwise {p : α → Bool} : ∀ {l : List α},
    l.Pairwise (fun a b => p b = true → p a = true) → l.filter p ++ l.filter (!p ·) = l
  | [], _ => rfl
  | a :: l, h => by
    rw [List.pairwise_cons] at h
    rcases ha : p a with _ | _
    · have hnone : ∀ b ∈ l, p b = false := fun b hb =>
        Bool.eq_false_iff.2 fun hpb => Bool.false_ne_true (ha.symm.trans (h.1 b hb hpb))
      have hall : l.filter (!p ·) = l :=
        List.filter_eq_self.2 fun b hb => by rw [hnone b hb, Bool.not_false]
      rw [List.filter_cons_of_neg (by rw [ha]; nofun), List.filter_cons_of_pos (by rw [ha]; rfl),
        hall, List.filter_eq_nil_iff.2 fun b hb => by rw [hnone b hb]; nofun, List.nil_append]
    · rw [List.filter_cons_of_pos ha, List.filter_cons_of_neg (by rw [ha]; nofun), List.cons_append,
        filter_append_of_pairwise h.2]

/-- A list that is in the order of its keys is regrouped to itself. -/
theorem regrouped_of_sorted : ∀ {ids : List κ} {l : List α}, ids.Nodup → (∀ a ∈ l, key a ∈ ids) →
    l.Pairwise (fun a b => ids.idxOf (key a) ≤ ids.idxOf (key b)) →
      (ids.flatMap fun id => l.filter (key · = id)) = l
  | [], l, _, hids, _ => by
    rcases l with _ | ⟨a, l⟩
    · rfl
    · exact absurd (hids a List.mem_cons_self) List.not_mem_nil
  | id :: ids, l, hn, hids, hsorted => by
    rw [List.nodup_cons] at hn
    -- Those of the first key come first, and the others are in order as well.
    have hfirst : l.filter (key · = id) ++ l.filter (fun a => !decide (key a = id)) = l := by
      refine filter_append_of_pairwise (hsorted.imp fun {a b} hle hb => ?_)
      refine decide_eq_true (by_contra fun hne => ?_)
      rw [of_decide_eq_true hb, List.idxOf_cons_self, List.idxOf_cons_ne _ (Ne.symm hne)] at hle
      exact absurd hle (Nat.not_succ_le_zero _)
    have hothers : ∀ a ∈ l.filter (fun a => !decide (key a = id)), a ∈ l ∧ id ≠ key a := by
      intro a ha
      obtain ⟨hl, hne⟩ := List.mem_filter.1 ha
      exact ⟨hl, fun heq => by simp [heq] at hne⟩
    have hrest := @regrouped_of_sorted ids (l.filter fun a => !decide (key a = id)) hn.2
      (fun a ha => (List.mem_cons.1 (hids a (hothers a ha).1)).resolve_left (hothers a ha).2.symm)
      ((hsorted.filter _).imp_of_mem fun {a b} ha hb hle => by
        rwa [List.idxOf_cons_ne _ (hothers a ha).2, List.idxOf_cons_ne _ (hothers b hb).2,
          Nat.succ_le_succ_iff] at hle)
    rw [List.flatMap_cons]
    refine Eq.trans (congrArg _ (Eq.trans (List.flatMap_congr fun id' hid' => ?_) hrest)) hfirst
    rw [List.filter_filter]
    refine List.filter_congr fun a _ => ?_
    by_cases ha : key a = id'
    · have hne : ¬ key a = id := fun heq => hn.1 (heq ▸ ha ▸ hid')
      simp [ha ▸ hne, ha]
    · simp [ha]

/-- Exactly a list that is in the order of its keys is regrouped to itself. -/
theorem regrouped_eq_iff {l : List α} {ids : List κ} (hn : ids.Nodup)
    (hids : ∀ a ∈ l, key a ∈ ids) : (ids.flatMap fun id => l.filter (key · = id)) = l ↔
      l.Pairwise fun a b => ids.idxOf (key a) ≤ ids.idxOf (key b) := by
  refine ⟨fun heq => ?_, regrouped_of_sorted hn hids⟩
  have hkey : ∀ {a id}, a ∈ l.filter (key · = id) → key a = id := fun ha =>
    of_decide_eq_true (List.mem_filter.1 ha).2
  have hsorted : ids.Pairwise fun id id' => ids.idxOf id ≤ ids.idxOf id' := by
    rw [List.pairwise_iff_getElem]
    intro i j hi hj hlt
    rw [hn.idxOf_getElem, hn.idxOf_getElem]
    exact Nat.le_of_lt hlt
  rw [← heq, List.pairwise_flatMap]
  refine ⟨fun id _ => List.pairwise_of_forall_mem_list fun a ha b hb => ?_,
    hsorted.imp fun hle a ha b hb => ?_⟩
  · exact Nat.le_of_eq (by rw [hkey ha, hkey hb])
  · rwa [hkey ha, hkey hb]

end

namespace Script

/-- The graph of a node. -/
def home (script : Script β) (id : NodeId) : GraphId :=
  (script.node? id).elim rootGraph (·.graph)

/-- The ids regrouped by graphs, in the order of the tree. -/
def regroup (script : Script β) (ids : List NodeId) : List NodeId :=
  (script.subtree rootGraph).flatMap fun graph => ids.filter (script.home · = graph)

/-- Whether a node answers to the name of an event within a scope, by a property of its own. -/
def hears (script : Script β) (name : String) (scope : Scope) (origin : GraphId)
    (node : Node β) : Bool :=
  decide (node.type = remoteEventType)
    && ((match scope with
        | .nested => decide (node.graph ∈ script.subtree origin)
        | .everywhere => true)
      && (Keyed.get? node.properties eventNameProperty).any (·.same (.string name)))

variable {script : Script β}

/-- Events that have no value links are found by a property of their own. -/
theorem eventsNamed_eq (h : script.Arena)
    (plain : ∀ node ∈ script.nodes, node.type = remoteEventType → node.links = [])
    (name : String) (scope : Scope) (origin : GraphId) : script.eventsNamed name scope origin =
      (script.nodes.filter (script.hears name scope origin)).map (·.id) := by
  unfold eventsNamed find
  simp only [h.nodesOfType_eq, List.filter_filter]
  refine congrArg _ (List.filter_congr fun node hn => ?_)
  by_cases htype : node.type = remoteEventType
  · have hproperty : script.property? node.id eventNameProperty =
        Keyed.get? node.properties eventNameProperty := by
      have hindex : node.linkIndex? eventNameProperty = none := by
        rw [Node.linkIndex?, plain node hn htype]
        rfl
      rw [property?, h.node?_eq hn]
      simp only [hindex]
    cases scope <;> simp [hears, hproperty, htype, Bool.and_comm]
  · simp [hears, htype]

theorem home_eq (h : script.Arena) {node : Node β} (hn : node ∈ script.nodes) :
    script.home node.id = node.graph := by
  rw [home, h.node?_eq hn, Option.elim_some]

/-- Of the nodes graph by graph some are those nodes regrouped. -/
theorem filter_byGraph (h : script.Arena) (p : Node β → Bool) :
    (script.byGraph.filter p).map (·.id) = script.regroup ((script.nodes.filter p).map (·.id)) := by
  rw [byGraph, List.filter_flatMap, List.map_flatMap, regroup]
  refine List.flatMap_congr fun graph _ => ?_
  rw [List.filter_map, List.filter_filter, List.filter_filter]
  refine congrArg _ (List.filter_congr fun node hn => ?_)
  rw [Function.comp, home_eq h hn, Bool.and_comm]

end Script

/-! ## Standard scripts -/

theorem Standard.remoteEvent_mem_catalog : fixed remoteEventNode ∈ catalog :=
  List.mem_iff_getElem?.2 ⟨6, rfl⟩

theorem Node.Native.plain {node : Node Standard} (h : node.Native)
    (htype : node.type = remoteEventType) : node.links = [] := by
  obtain ⟨authored, hd⟩ := h.descends Standard.remoteEvent_mem_catalog htype
  have hlinks := congrArg NodeBuilder.links hd.node_shape
  exact List.map_eq_nil_iff.1 hlinks

namespace Script.Saved

variable {script : Script Standard} {keys : Keys} (h : script.Saved keys) {loaded : Loaded Standard}
  (hb : (script.definition keys).Built Standard.registry loaded) (ha : loaded.script.Arena)

include h

theorem plain : ∀ node ∈ script.nodes, node.type = remoteEventType → node.links = [] :=
  fun _ hn => (h.native _ _ (h.arena.node?_eq hn)).plain

include hb

theorem plain_again : ∀ node ∈ loaded.script.nodes, node.type = remoteEventType →
    node.links = [] := by
  intro node hn htype
  have hmem := List.mem_map_of_mem (f := Node.hollow) hn
  rw [h.hollow_again hb] at hmem
  obtain ⟨old, hold, heq⟩ := List.mem_map.1 hmem
  simp only [Node.hollow, Node.reset, again, Node.mk.injEq] at heq
  obtain ⟨-, -, hsame, -, -, -, -, hlinks, -, -⟩ := heq
  have hnone := h.plain old (h.arena.perm_byGraph.mem_iff.1 hold) (hsame.trans htype)
  rw [hnone, List.map_nil] at hlinks
  exact List.map_eq_nil_iff.1 hlinks.symm

include ha

theorem hears_again {origin : GraphId} (ho : origin ∈ script.graphs.map (·.id)) (name : String)
    (scope : Scope) {node : Node Standard} (hn : node ∈ script.nodes) :
    loaded.script.hears name scope (script.place origin) (script.again node).hollow =
      script.hears name scope origin node := by
  have hgraph : node.graph ∈ script.graphs.map (·.id) :=
    h.arena.filed.housed _ (List.mem_map_of_mem hn)
  have hwithin : script.place node.graph ∈ loaded.script.subtree (script.place origin) ↔
      node.graph ∈ script.subtree origin := by
    rw [subtree_again h.arena ha hb ho, List.mem_map]
    constructor
    · rintro ⟨graph, hmem, heq⟩
      rwa [(h.arena.place_inj hgraph).1 heq.symm]
    · exact fun hmem => ⟨_, hmem, rfl⟩
  cases scope
  · have hdecide : decide (script.place node.graph ∈ loaded.script.subtree (script.place origin)) =
        decide (node.graph ∈ script.subtree origin) := decide_eq_decide.2 hwithin
    exact congrArg (fun within => decide (node.type = remoteEventType) && (within &&
      (Keyed.get? node.properties eventNameProperty).any (·.same (.string name)))) hdecide
  · rfl

theorem eventsNamed_again {origin : GraphId} (ho : origin ∈ script.graphs.map (·.id))
    (name : String) (scope : Scope) :
    loaded.script.eventsNamed name scope (script.place origin) =
      (script.regroup (script.eventsNamed name scope origin)).map script.number := by
  have hfilter := congrArg (fun nodes => (nodes.filter
    (loaded.script.hears name scope (script.place origin))).map Node.id) (h.hollow_again hb)
  simp only [List.filter_map, List.map_map] at hfilter
  rw [eventsNamed_eq ha (h.plain_again hb), eventsNamed_eq h.arena h.plain,
    ← filter_byGraph h.arena, List.map_map]
  -- Whether a node is found depends on nothing that loading does not give back.
  refine Eq.trans hfilter (congrArg _ (List.filter_congr fun node hn => ?_))
  exact h.hears_again hb ha ho name scope (h.arena.perm_byGraph.mem_iff.1 hn)

end Script.Saved

namespace Script

theorem mem_eventsNamed {script : Script Standard} (h : script.Arena)
    (plain : ∀ node ∈ script.nodes, node.type = remoteEventType → node.links = [])
    {name : String} {scope : Scope} {origin : GraphId} {id : NodeId}
    (hid : id ∈ script.eventsNamed name scope origin) :
    id ∈ script.nodes.map (·.id) := by
  rw [eventsNamed_eq h plain] at hid
  obtain ⟨node, hn, rfl⟩ := List.mem_map.1 hid
  exact List.mem_map_of_mem (List.mem_filter.1 hn).1

/-- A script of standard nodes that is saved and loaded again has its tree of graphs again, and its
events of a name are found again in the order of this tree: those that were found before, regrouped
by their graphs. Exactly if they were found in the order of the tree before, they are found in the
same order. -/
theorem Reachable.events_again {script : Script Standard}
    (h : script.Reachable Standard.Instantiated) {keys : Keys} (hk : (Keyed.keys keys).Nodup)
    {loaded : Loaded Standard}
    (built : (script.definition keys).build Standard.registry = .ok loaded) :
    script.place rootGraph = rootGraph
      ∧ (∀ graph ∈ script.graphs, ∃ again ∈ loaded.script.graphs,
        again.id = script.place graph.id ∧ again.name = graph.name
          ∧ again.subGraphs = graph.subGraphs.map script.place)
      ∧ ∀ origin, script.containsGraph origin = true → ∀ name scope,
        let found := script.eventsNamed name scope origin
        let names := (Names.ofScript script keys).get
        let again := (loaded.script.eventsNamed name scope (script.place origin)).map
          (Names.ofScript loaded.script loaded.keys).get
        again = (script.regroup found).map names
          ∧ (script.regroup found).Perm found
          ∧ (again = found.map names ↔ found.Pairwise fun a b =>
            (script.place (script.home a)).raw ≤ (script.place (script.home b)).raw) := by
  have hs : script.Saved keys := .ofReachable h hk
  have hb := ((GraphDef.build_answers Standard.places_made _).right_of_ok built).built
  have ha : loaded.script.Arena :=
    Script.Reachable.arena (.built Standard.places_made built)
  obtain ⟨root, hroot, hid⟩ := hs.arena.root_mem
  refine ⟨?_, fun graph hg => graph_again hs.arena hb hg, fun origin ho name scope => ?_⟩
  · rw [place, ← hid, subtree_eq hs.arena.nesting hroot, List.idxOf_cons_self, hid]
    rfl
  have hlive : ∀ id ∈ script.eventsNamed name scope origin, id ∈ script.nodes.map (·.id) :=
    fun id => mem_eventsNamed hs.arena hs.plain
  have hhome : ∀ id ∈ script.eventsNamed name scope origin,
      script.home id ∈ script.subtree rootGraph := by
    intro id hfound
    obtain ⟨node, hn, rfl⟩ := List.mem_map.1 (hlive id hfound)
    rw [home_eq hs.arena hn, hs.arena.mem_subtree_root]
    exact hs.arena.filed.housed _ (List.mem_map_of_mem hn)
  have hnodup : (script.eventsNamed name scope origin).Nodup := by
    rw [eventsNamed_eq hs.arena hs.plain]
    exact hs.arena.nodup_nodes.sublist (List.filter_sublist.map _)
  have hperm : (script.regroup (script.eventsNamed name scope origin)).Perm
      (script.eventsNamed name scope origin) :=
    perm_regrouped hnodup hs.arena.nodup_subtree_root hhome
  have hnames : (loaded.script.eventsNamed name scope (script.place origin)).map
      (Names.ofScript loaded.script loaded.keys).get =
        (script.regroup (script.eventsNamed name scope origin)).map
          (Names.ofScript script keys).get := by
    rw [hs.eventsNamed_again hb ha (containsGraph_iff.1 ho), List.map_map]
    refine List.map_congr_left fun id hfound => ?_
    exact hs.name_again hb ha (hlive id (hperm.mem_iff.1 hfound))
  refine ⟨hnames, hperm, ?_⟩
  rw [hnames, map_inj_on fun a ha b hb =>
    Names.get_inj script hk (hlive a (hperm.mem_iff.1 ha)) (hlive b hb)]
  exact regrouped_eq_iff hs.arena.nodup_subtree_root hhome

/-- How to come by two bells, the first one in a nested graph. -/
def hanging : List (Edit Standard) :=
  [.addGraph rootGraph "porch",
    .addNode ⟨1⟩ (Standard.remoteEventNode.property eventNameProperty (.string "ring")),
    .addNode rootGraph (Standard.remoteEventNode.property eventNameProperty (.string "ring"))]

/-- Two bells, the first one in a nested graph. -/
def bells : Script Standard := hanging.foldl edit (withRootName "house")

theorem bells_reachable : bells.Reachable Standard.Instantiated := by
  have hbell : Standard.Instantiated
      (Standard.remoteEventNode.property eventNameProperty (.string "ring")) :=
    ⟨remoteEventType, [(eventNameProperty, .string "ring")], rfl⟩
  refine .edits (.fresh "house") fun change hc => ?_
  simp only [hanging, List.mem_cons, List.not_mem_nil, or_false] at hc
  rcases hc with rfl | rfl | rfl
  · trivial
  · exact hbell
  · exact hbell

/-- Everywhere, the bell of the root comes first when the bells are loaded again. In the nested
graph there is one bell as before. -/
theorem events_again_of_bells : ∃ loaded,
    (bells.definition []).build Standard.registry = .ok loaded
      ∧ (loaded.script.eventsNamed "ring" .everywhere rootGraph).map
        (Names.ofScript loaded.script loaded.keys).get = ["node:1", "node:0"]
      ∧ (loaded.script.eventsNamed "ring" .nested (bells.place ⟨1⟩)).map
        (Names.ofScript loaded.script loaded.keys).get = ["node:0"] := by
  obtain ⟨loaded, hb⟩ : ∃ loaded, (bells.definition []).build Standard.registry = .ok loaded :=
    exists_ok_of_isSome (by decide +kernel)
  have hkeys : (Keyed.keys ([] : Keys)).Nodup := List.nodup_nil
  obtain ⟨hroot, -, hevents⟩ := Reachable.events_again bells_reachable hkeys hb
  obtain ⟨hall, -, -⟩ := hevents rootGraph (by decide +kernel) "ring" .everywhere
  obtain ⟨-, -, hsame⟩ := hevents ⟨1⟩ (by decide +kernel) "ring" .nested
  refine ⟨loaded, hb, ?_, ?_⟩
  · rw [hroot] at hall
    rw [hall]
    decide +kernel
  · rw [hsame.2 (by decide +kernel)]
    decide +kernel

/-- Two bells of one name are found in another order when they are loaded again. -/
theorem reordered_of_bells : bells.Reachable Standard.Instantiated
    ∧ (bells.eventsNamed "ring" .everywhere rootGraph).map (Names.ofScript bells []).get =
      ["node:0", "node:1"]
    ∧ ((bells.definition []).build Standard.registry).toOption.map (fun loaded =>
      (loaded.script.eventsNamed "ring" .everywhere rootGraph).map
        (Names.ofScript loaded.script loaded.keys).get) = some ["node:1", "node:0"] :=
  ⟨bells_reachable, by decide +kernel, by decide +kernel⟩

end Script

end FlowScript
