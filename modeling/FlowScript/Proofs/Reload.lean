import FlowScript.Proofs.Built

/-!
# Saving and reloading

A script that was built and played is described by a definition that builds it again: the same keys
and ids, the same graphs, connections, bindings and values (`Session.reloads`). What play did to the
nodes is first carried back to the nodes as they were placed, so that these are created again; then
they are joined again.
-/

namespace FlowScript

variable {β : Type}

/-! ## What a definition tells -/

namespace Script

variable {script script' : Script β}

theorem node?_kept (script : Script β) (id : NodeId) :
    script.kept.node? id = (script.node? id).map .kept :=
  node?_map (f := Node.kept) script (fun _ => rfl) id

theorem linkDefs_kept (script : Script β) (names : Names) (node : Node β) :
    script.kept.linkDefs names node.kept = script.linkDefs names node := by
  have hinput : ∀ ref, (script.kept.input? ref).map (·.name) =
      (script.input? ref).map (·.name) := by
    intro ref
    rw [input?, node?_kept, input?]
    rcases script.node? ref.node with _ | target
    · rfl
    · simp only [Option.map_some, Option.bind_some, Node.kept, List.getElem?_map, Option.map_map]
      rfl
  simp only [linkDefs, Node.kept, List.flatMap_map]
  refine List.flatMap_congr fun output _ => List.filterMap_congr fun ref _ => ?_
  have hdef := congrArg (Option.map fun input =>
    (⟨names.get node.id, output.name, names.get ref.node, input⟩ : LinkDef)) (hinput ref)
  simp only [Option.map_map] at hdef
  exact hdef

theorem bindingDefs_kept (script : Script β) (names : Names) (node : Node β) :
    script.kept.bindingDefs names node.kept = script.bindingDefs names node := by
  have hcontains : script.kept.containsNode = script.containsNode := by
    funext id
    rw [containsNode, node?_kept, Option.isSome_map, containsNode]
  rw [bindingDefs, hcontains]
  rfl

/-- Connections at inputs, pulses and behaviors are not described. -/
theorem graphDef_kept (script : Script β) (names : Names) : ∀ (fuel : Nat) (id : GraphId),
    script.kept.graphDef names fuel id = script.graphDef names fuel id
  | 0, _ => rfl
  | fuel + 1, id => by
    have hgraph : script.kept.graph? id = script.graph? id := rfl
    rw [graphDef, graphDef, hgraph]
    rcases script.graph? id with _ | graph
    · rfl
    have hmembers : graph.nodes.filterMap script.kept.node? =
        (graph.nodes.filterMap script.node?).map .kept := by
      rw [List.map_filterMap]
      exact List.filterMap_congr fun id _ => script.node?_kept id
    have hsubs : graph.subGraphs.map (script.kept.graphDef names fuel) =
        graph.subGraphs.map (script.graphDef names fuel) :=
      List.map_congr_left fun sub _ => graphDef_kept script names fuel sub
    simp only [hmembers, hsubs, List.map_map, List.flatMap_map, linkDefs_kept, bindingDefs_kept]
    rfl

theorem definition_of_kept (h : script'.kept = script.kept) (keys : Keys) :
    script'.definition keys = script.definition keys := by
  have definition_kept : ∀ s : Script β, s.kept.definition keys = s.definition keys := by
    intro s
    have hnames : Names.ofScript s.kept keys = Names.ofScript s keys := by
      simp only [Names.ofScript, kept, List.map_map]
      rfl
    rw [definition, hnames, definition, graphDef_kept]
    rfl
  rw [← definition_kept, h, definition_kept]

/-! ## What became of placed nodes -/

/-- Every node that was placed is still there, as far as its shape and its plain properties tell,
and graphs are as they were. -/
structure Became (placed later : Script β) : Prop where
  graphs : later.graphs = placed.graphs
  byType : later.byType = placed.byType
  nextGraph : later.nextGraph = placed.nextGraph
  nextNode : later.nextNode = placed.nextNode
  ids : later.nodes.map (·.id) = placed.nodes.map (·.id)
  nodes : ∀ id node, placed.node? id = some node → ∃ now, later.node? id = some now
    ∧ now.graph = node.graph ∧ now.shape = node.shape
    ∧ uncelled now.properties = uncelled node.properties

theorem Became.trans {placed between later : Script β} (h : placed.Became between)
    (h' : between.Became later) : placed.Became later where
  graphs := h'.graphs.trans h.graphs
  byType := h'.byType.trans h.byType
  nextGraph := h'.nextGraph.trans h.nextGraph
  nextNode := h'.nextNode.trans h.nextNode
  ids := h'.ids.trans h.ids
  nodes id node hn := by
    obtain ⟨then_, ht, hgraph, hshape, hproperties⟩ := h.nodes id node hn
    obtain ⟨now, hnow, hgraph', hshape', hproperties'⟩ := h'.nodes id then_ ht
    exact ⟨now, hnow, hgraph'.trans hgraph, hshape'.trans hshape, hproperties'.trans hproperties⟩

/-- Scripts whose nodes look alike, seen without some things that are not counted. -/
theorem Became.of_map {placed later : Script β} {f : Node β → Node β}
    (hf : ∀ n, (f n).id = n.id ∧ (f n).graph = n.graph ∧ (f n).shape = n.shape
      ∧ uncelled (f n).properties = uncelled n.properties)
    (h : ({ later with nodes := later.nodes.map f } : Script β) =
      { placed with nodes := placed.nodes.map f }) : placed.Became later := by
  simp only [Script.mk.injEq] at h
  obtain ⟨hgraphs, hnodes, htypes, hnextGraph, hnextNode⟩ := h
  have hids := congrArg (List.map (·.id)) hnodes
  simp only [List.map_map, Function.comp_def, fun n => (hf n).1] at hids
  refine ⟨hgraphs, htypes, hnextGraph, hnextNode, hids, fun id node hn => ?_⟩
  obtain ⟨now, hnow, heq⟩ := node?_of_alike (fun n => (hf n).1) hnodes.symm hn
  obtain ⟨-, hgraph, hshape, hproperties⟩ := hf now
  obtain ⟨-, hgraph', hshape', hproperties'⟩ := hf node
  refine ⟨now, hnow, ?_, ?_, ?_⟩
  · rw [← hgraph, ← heq, hgraph']
  · rw [← hshape, ← heq, hshape']
  · rw [← hproperties, ← heq, hproperties']

theorem Became.of_bare {placed later : Script β} (h : later.bare = placed.bare) :
    placed.Became later := by
  refine .of_map (f := Node.bare) (fun n => ⟨rfl, rfl, ?_, rfl⟩) h
  simp only [Node.shape, Node.bare, Node.reset, List.map_map]
  rfl

theorem uncelled_uncelled (properties : PropertySet) :
    uncelled (uncelled properties) = uncelled properties := by
  rw [uncelled, uncelled, List.map_map]
  refine List.map_congr_left fun e _ => ?_
  by_cases hname : e.1 = cellName
  · simp only [Function.comp, if_pos hname, PropertyType.type_zero]
  · simp only [Function.comp, if_neg hname]

theorem Played.became {before script : Script Standard} (h : before.Played script) :
    before.Became script := by
  have hmap := h.authored
  simp only [Script.authored, dormant, List.map_map] at hmap
  refine .of_map (f := Node.authored ∘ Node.dormant) (fun n => ⟨rfl, rfl, ?_, ?_⟩) hmap
  · rw [Function.comp, ← Node.shape_skeleton, Node.skeleton_authored, Node.shape_skeleton]
    rfl
  · exact uncelled_uncelled n.properties

/-- The nodes as they are placed again are those of the later script, without connections. -/
theorem Became.hollow_renewed {placed later : Script β} (h : placed.Became later)
    (ha : later.Arena) : (placed.renewed later).hollow = later.hollow
      ∧ ∀ node ∈ (placed.renewed later).nodes, ∃ (now : Node β) (b : Option β),
        node = now.reset b := by
  have hfound : ∀ node ∈ placed.nodes, ∀ now ∈ later.nodes, now.id = node.id →
      node.renewed later = now.reset node.behavior := by
    intro node _ now hnow hid
    rw [Node.renewed, ← hid, ha.node?_eq hnow, Option.elim_some]
  constructor
  · have hnodes : later.nodes.map Node.hollow =
        placed.nodes.map fun node => (node.renewed later).hollow := by
      refine map_eq_of_keys h.ids fun node hn now hnow hid => ?_
      rw [hfound node hn now hnow hid]
      simp only [Node.hollow, Node.reset, List.map_map]
      rfl
    simp only [hollow, renewed, List.map_map, hnodes, h.graphs, h.byType, h.nextGraph, h.nextNode]
    rfl
  · intro renewed hr
    obtain ⟨node, hn, rfl⟩ := List.mem_map.1 hr
    have hid : node.id ∈ later.nodes.map (·.id) := by
      rw [h.ids]
      exact List.mem_map_of_mem hn
    obtain ⟨now, hnow, hsame⟩ := List.mem_map.1 hid
    exact ⟨now, node.behavior, hfound node hn now hnow hsame⟩

end Script

/-! ## Standard scripts -/

theorem Node.Genuine.distinct {node : Node Standard} (h : node.Genuine) : node.Distinct := by
  obtain ⟨entry, he, properties, hshape, -⟩ := h
  exact Node.distinct_of_shape he hshape

theorem Node.Genuine.declaresCell {node : Node Standard} (h : node.Genuine) :
    node.isValueNode = true ↔ node.valueType.isSome = true := by
  obtain ⟨entry, he, properties, hshape, -⟩ := h
  exact Node.declaresCell_of_shape he hshape

namespace Script

/-- What is bound to a link that checks types keeps its type, and so does the default of the
link. -/
theorem Matched.of_authored {script script' : Script β} (hm : script.Matched)
    (h : script'.authored = script.authored) : script'.Matched := by
  intro ref link' hl' hchecked id hid cell' hc'
  obtain ⟨node', hn', hlink'⟩ := Option.bind_eq_some_iff.1 hl'
  obtain ⟨node, hn, hsame⟩ := node?_of_authored h hn'
  obtain ⟨cell, hc, hcell⟩ := node?_of_authored h hc'
  have hlinks := congrArg (·[ref.index]?) (congrArg Node.links hsame :)
  simp only [Node.authored, List.getElem?_map, hlink', Option.map_some] at hlinks
  obtain ⟨link, hlink, heq⟩ := Option.map_eq_some_iff.1 hlinks.symm
  obtain rfl : link = link' := by
    have hbound : link.bound = link'.bound := by
      have hb := congrArg ValueLink.bound heq
      simp only [ValueLink.authored] at hb
      split at hb <;> split at hb <;> exact hb
    have hne : link'.bound ≠ [] := List.ne_nil_of_mem hid
    rw [ValueLink.authored, ValueLink.authored, if_neg hne, if_neg (hbound ▸ hne)] at heq
    exact heq
  have hl : script.link? ref = some link := by
    rw [link?, hn, Option.bind_some, hlink]
  rw [← hm ref link hl hchecked id hid cell hc]
  exact (congrArg Node.valueType hcell :)

theorem matched_dormant (script : Script β) : script.dormant.Matched ↔ script.Matched := by
  have hlink : script.dormant.link? = script.link? := by
    funext ref
    rw [link?, node?_dormant, link?]
    rcases script.node? ref.node with _ | node <;> rfl
  unfold Matched
  simp only [hlink, node?_dormant]
  constructor
  · intro h ref link hl hchecked id hid cell hc
    exact h ref link hl hchecked id hid cell.dormant (by rw [hc, Option.map_some])
  · intro h ref link hl hchecked id hid cell hc
    obtain ⟨awake, ha, rfl⟩ := Option.map_eq_some_iff.1 hc
    exact h ref link hl hchecked id hid awake ha

theorem Played.matched {before script : Script Standard} (h : before.Played script)
    (hm : before.Matched) : script.Matched :=
  script.matched_dormant.1 ((before.matched_dormant.2 hm).of_authored h.authored)

end Script

/-- A standard script that was built: what was placed was joined. -/
structure Loaded.Joins (placed loaded : Loaded Standard) : Prop where
  arena : placed.script.Arena
  labelled : placed.Labelled
  created : ∀ node ∈ placed.script.nodes, node.Created Standard.registry
  keys : loaded.keys = placed.keys
  bare : loaded.script.bare = placed.script.bare
  matched : loaded.script.Matched

theorem GraphDef.Proper.built {definition : GraphDef} (hp : definition.Proper)
    {loaded : Loaded Standard} (h : definition.build Standard.registry = .ok loaded) :
    ∃ placed, Loaded.place Standard.registry definition rootGraph
      { script := .withRootName definition.name } = .ok placed ∧ placed.Joins loaded := by
  obtain ⟨placed, hplace, hjoin⟩ := bind_eq_ok.1 h
  have hcreated := (Loaded.created_keeps Standard.registry).place definition rootGraph hp hplace
    (List.forall_mem_nil _)
  obtain ⟨hkeys, hbare⟩ := Loaded.joined hjoin
  refine ⟨placed, hplace, ?_, ?_, hcreated, hkeys, hbare, Loaded.matched_of_joins hjoin ?_⟩
  · exact (Loaded.arena_keeps Standard.registry).place definition rootGraph
      (fun _ _ _ _ => trivial) hplace (.withRootName _)
  · exact (Loaded.labelled_keeps Standard.registry).place definition rootGraph
      (fun _ _ _ _ => trivial) hplace ⟨rfl, .nil⟩
  · -- Nothing is bound in what was placed.
    intro ref link hl _ id hid
    obtain ⟨node, hn, hlink⟩ := Option.bind_eq_some_iff.1 hl
    obtain ⟨type, properties, builder, -, hc, heq⟩ := hcreated node (List.mem_of_find?_eq_some hn)
    rw [heq] at hlink
    rw [(Standard.places_declared type properties builder hc).unbound link
      (List.mem_of_getElem? hlink)] at hid
    cases hid

namespace Loaded.Joins

variable {placed loaded : Loaded Standard} (h : placed.Joins loaded)

include h

theorem created_of_node? {id : NodeId} {node : Node Standard}
    (hn : loaded.script.node? id = some node) :
    ∃ first : Node Standard, first.Created Standard.registry ∧ node.bare = first.bare := by
  obtain ⟨first, hfirst, hsame⟩ := Script.node?_of_bare h.bare hn
  exact ⟨first, h.created first (List.mem_of_find?_eq_some hfirst), hsame⟩

theorem stocked : loaded.script.Stocked := by
  intro id node hn
  obtain ⟨first, hc, hsame⟩ := h.created_of_node? hn
  exact hc.stocked.of_bare hsame

theorem genuine : ∀ id node, loaded.script.node? id = some node → node.Genuine := by
  intro id node hn
  obtain ⟨first, hc, hsame⟩ := h.created_of_node? hn
  exact hc.genuine.of_bare hsame

variable {script : Script Standard} (hp : loaded.script.Played script)

include hp

/-- What play made of the nodes is created again from its description. -/
theorem redoable : Redoable Standard.registry (placed.keys.map fun e => (e.2, e.1)) script
    placed := by
  have became := (Script.Became.of_bare h.bare).trans hp.became
  refine ⟨fun e he => (h.labelled.named h.arena he).1, fun node hnode => ?_⟩
  obtain ⟨type, properties, builder, hnodup, hc, heq⟩ := h.created node hnode
  obtain ⟨now, hnow, hgraph, hshape, hproperties⟩ := became.nodes node.id node
    (h.arena.node?_eq hnode)
  have hid := Script.id_of_node? hnow
  obtain ⟨builder', hc', hbuild⟩ := Standard.recreate hnodup hc
    (hshape.trans (congrArg Node.shape heq))
    (hproperties.trans (congrArg (uncelled ·.properties) heq))
    (hp.stocked h.stocked node.id now hnow) (placed.keys.map fun e => (e.2, e.1))
  refine ⟨now, builder', hnow, (congrArg NodeBuilder.type hshape :), hc', ?_⟩
  rw [← hid, ← hgraph, hbuild, heq]
  rfl

theorem joinable {definition : GraphDef}
    (built : definition.build Standard.registry = .ok loaded) :
    script.Joinable (placed.keys.map fun e => (e.2, e.1)) placed.keys := by
  have became := (Script.Became.of_bare h.bare).trans hp.became
  have hr : loaded.script.Reachable NodeBuilder.Declared := .built Standard.places_declared built
  have hm : loaded.script.Reachable NodeBuilder.Made := .built Standard.places_made built
  refine ⟨hr.arena.of_skeleton hp.skeleton, hm.paired.of_skeleton hp.skeleton,
    hr.grounded.of_skeleton hp.skeleton, hp.matched h.matched,
    fun id node hn => (hp.genuine id node hn).distinct,
    fun id node hn => (hp.genuine id node hn).declaresCell, fun id node hn => ?_⟩
  have hid : node.id ∈ placed.keys.map (·.2) := by
    rw [h.labelled.ids, ← became.ids]
    exact List.mem_map_of_mem (List.mem_of_find?_eq_some hn)
  obtain ⟨e, he, heq⟩ := List.mem_map.1 hid
  obtain ⟨hname, hkey⟩ := h.labelled.named h.arena he
  rw [← Script.id_of_node? hn, ← heq, hname, hkey]

end Loaded.Joins

/-- A script that was built and played is described by a definition that builds it again: with the
same keys, and the same script up to the order in which an input lists its sources, to pulses and to
the private state of behaviors. Described once more, it gives the same definition. -/
theorem Director.Session.reloads {definition : GraphDef} (proper : definition.Proper)
    {loaded : Loaded Standard} (built : definition.build Standard.registry = .ok loaded)
    {start director : Director Standard} (first : start.script = loaded.script)
    (session : start.Session Move.Fires director) :
    ∃ again, (director.script.definition loaded.keys).build Standard.registry = .ok again
      ∧ again.keys = loaded.keys ∧ again.script.kept = director.script.kept
      ∧ (∀ i, (again.script.sources i).Perm (director.script.sources i))
      ∧ again.script.definition again.keys = director.script.definition loaded.keys := by
  obtain ⟨placed, hplace, joins⟩ := proper.built built
  have hr : loaded.script.Reachable NodeBuilder.Declared := .built Standard.places_declared built
  have played : loaded.script.Played director.script := by
    have hplayed := session.played (first ▸ hr.arena) (first ▸ hr.grounded)
      (first ▸ joins.stocked) (first ▸ joins.genuine)
    exact first ▸ hplayed
  have became := (Script.Became.of_bare joins.bare).trans played.became
  have hj := joins.joinable played built
  -- All nodes are placed as they were, then they are joined as they are.
  have described : director.script.definition loaded.keys = director.script.graphDef
      (placed.keys.map fun e => (e.2, e.1)) (director.script.graphs.length + 1) rootGraph := by
    rw [Script.definition, joins.keys, joins.labelled.ofScript_eq joins.arena became.ids]
  obtain ⟨hagain, tells⟩ := Loaded.placed_again hplace became.graphs became.ids hj.arena
    (joins.redoable played) described
  obtain ⟨hhollow, hreset⟩ := became.hollow_renewed hj.arena
  have start : director.script.Rejoined placed.keys [] [] (placed.renewed director.script) :=
    .start rfl hhollow hreset
  obtain ⟨again, hjoin, hkeys, hollow, targets, bound⟩ := Script.rejoin hj tells start
  have built' : (director.script.definition loaded.keys).build Standard.registry = .ok again :=
    bind_eq_ok.2 ⟨_, hagain, hjoin⟩
  have paired : again.script.Paired :=
    Script.Reachable.paired (.built Standard.places_made built')
  have arena : again.script.Arena :=
    Script.Reachable.arena (.built Standard.places_made built')
  have kept := Script.kept_of_hollow hj.arena arena hollow targets bound
  refine ⟨again, built', hkeys.trans joins.keys.symm, kept, fun i => ?_, ?_⟩
  · refine (List.perm_ext_iff_of_nodup (paired.sources_nodup i) (hj.paired.sources_nodup i)).2
      fun o => ?_
    rw [← paired.both, targets, hj.paired.both]
  · rw [hkeys, ← joins.keys]
    exact Script.definition_of_kept kept loaded.keys

/-- A button of the house, and on a panel the lamp that it flips and a dial with one output. The
dial is connected to the button by the panel, which does not own the button. -/
def house : GraphDef where
  name := "house"
  nodes := [{ key := "button", name := "Toggle", category := "Core" }]
  bindings := [⟨"button", "Value", "lamp"⟩]
  subGraphs :=
    [ { name := "panel"
        nodes :=
          [ { key := "lamp", name := "Boolean", category := "Value" }
          , { key := "dial", name := "Switch", category := "Core"
              properties := [("OutputCount", .int (-3))] } ]
        links := [⟨"button", "Out", "dial", "In"⟩] } ]

/-- The house as it is loaded, and after the button was pressed. -/
def pressed : Option (Loaded Standard × Director Standard) :=
  (house.build Standard.registry).toOption.bind fun loaded =>
    let director : Director Standard := { script := loaded.script }
    ((director.move (.triggerInput rootGraph ⟨0⟩ "Toggle")).update 10 0 0).map fun ended =>
      (loaded, ended.2)

/-- The lamp is on, and it is on when the house is loaded again. -/
theorem reloads_of_house : ∃ (loaded again : Loaded Standard) (director : Director Standard),
    house.build Standard.registry = .ok loaded ∧ pressed = some (loaded, director)
      ∧ (director.script.property? ⟨1⟩ cellName).bind (·.asBool?) = some true
      ∧ (director.script.definition loaded.keys).build Standard.registry = .ok again
      ∧ again.keys = loaded.keys ∧ again.script.kept = director.script.kept := by
  have hpressed : pressed.bind (fun p => (p.2.script.property? ⟨1⟩ cellName).bind (·.asBool?)) =
      some true := by
    decide +kernel
  obtain ⟨⟨loaded, director⟩, hsome, hon⟩ := Option.bind_eq_some_iff.1 hpressed
  obtain ⟨loaded', hloaded, hrest⟩ := Option.bind_eq_some_iff.1 hsome
  obtain ⟨⟨ending, after⟩, hupdate, heq⟩ := Option.map_eq_some_iff.1 hrest
  obtain ⟨rfl, rfl⟩ := Prod.mk.inj heq
  have built : house.build Standard.registry = .ok loaded' := by
    rcases h : house.build Standard.registry with e | l <;> rw [h] at hloaded
    · cases hloaded
    · rw [Option.some.inj hloaded]
  have proper : house.Proper := by
    unfold GraphDef.Proper NodeDef.Proper
    decide +kernel
  obtain ⟨again, hagain, hkeys, hkept, -⟩ := Director.Session.reloads proper built rfl
    (.tick (.move (.triggerInput rootGraph ⟨0⟩ "Toggle") trivial .start) hupdate)
  exact ⟨loaded', again, after, built, hsome, hon, hagain, hkeys, hkept⟩

end FlowScript
