import FlowScript.Proofs.Numbering

/-!
# What a definition is built to

Once the nodes of a definition have been created, its links and bindings are joined one by one. A
piece fails if it has a fault, and otherwise it adds its connection or its binding to those of the
pieces before it (`Joined`). So a definition is built exactly if no piece has a fault, and then its
script can be read off its pieces (`GraphDef.Built`).
-/

namespace FlowScript

variable {β : Type}

/-! ## What keys lead to -/

theorem lt_of_position? {α : Type} {p : α → Bool} : ∀ {l : List α} {k : Nat},
    position? p l = some k → k < l.length
  | [], _, h => nomatch h
  | a :: l, k, h => by
    rw [position?] at h
    split at h
    · obtain rfl := Option.some.inj h
      exact Nat.zero_lt_succ _
    · obtain ⟨k, hk, rfl⟩ := Option.map_eq_some_iff.1 h
      exact Nat.succ_lt_succ (lt_of_position? hk)

/-- A key leads to the first node that has it. -/
theorem get?_labels (key : String) : ∀ (homes : List (GraphId × NodeDef)) (node : Nat),
    Keyed.get? (labels homes node) key =
      (position? (·.key == key) (homes.map (·.2))).map fun k => ⟨node + k⟩
  | [], _ => rfl
  | home :: homes, node => by
    have hlabels : labels (home :: homes) node =
        (home.2.key, ⟨node⟩) :: labels homes (node + 1) := rfl
    rw [hlabels, Keyed.get?, List.map_cons, position?, get?_labels key homes]
    by_cases hkey : home.2.key = key
    · rw [if_pos hkey, if_pos (beq_iff_eq.2 hkey)]
      rfl
    · rw [if_neg hkey, if_neg (by rwa [beq_iff_eq]), Option.map_map]
      congr 1
      funext k
      simp only [Function.comp, Nat.add_assoc, Nat.add_comm 1]

theorem Registry.ids_nodes (registry : Registry β) : ∀ (homes : List (GraphId × NodeDef))
    (node : Nat), (∀ home ∈ homes, registry.Accepts home.2) →
      (registry.nodes homes node).map (·.id) = nodeIds node homes.length
  | [], _, _ => rfl
  | home :: homes, node, h => by
    rw [List.forall_mem_cons] at h
    obtain ⟨builder, hc⟩ := accepts_iff.1 h.1
    have hids := nodeIds_append node 1 homes.length
    rw [Nat.add_comm 1] at hids
    rw [nodes_cons, hc, List.map_append, ids_nodes registry homes (node + 1) h.2]
    exact hids

namespace GraphDef

variable (definition : GraphDef) (registry : Registry β)

/-- The inputs that pieces connect to an output, in the order in which they first do so. -/
def led (pieces : List Piece) (o : OutputRef) : List InputRef :=
  (((pieces.filterMap (definition.wire? registry)).filter (·.1 = o)).map (·.2)).eraseDups

/-- The nodes of a definition with what some of its pieces join. -/
structure Joined (pieces : List Piece) (loaded : Loaded β) : Prop where
  keys : loaded.keys = labels (homes definition.preorder 0) 0
  graphs : loaded.script.graphs = definition.graphs none 0 0
  nodes : loaded.script.nodes.map Node.bare = (definition.created registry).map Node.bare
  accepted : ∀ node ∈ definition.entries, registry.Accepts node
  paired : loaded.script.Paired
  targets : ∀ o, loaded.script.targets o = definition.led registry pieces o
  bound : ∀ ref, loaded.script.bound ref = definition.listed registry pieces ref

variable {definition registry}

theorem eraseDups_concat {α : Type} [DecidableEq α] (l : List α) (a : α) :
    (l ++ [a]).eraseDups = if a ∈ l then l.eraseDups else l.eraseDups ++ [a] := by
  rw [List.eraseDups_append]
  have hone : [a].eraseDups = [a] := by
    rw [List.eraseDups_cons]
    rfl
  split <;> rename_i h <;> simp [List.removeAll, h, hone]

theorem led_of_wire {piece : Piece} {o : OutputRef} {i : InputRef}
    (h : definition.wire? registry piece = some (o, i)) (before : List Piece) (o' : OutputRef) :
    definition.led registry (before ++ [piece]) o' =
      if o' = o ∧ i ∉ definition.led registry before o
        then definition.led registry before o' ++ [i] else definition.led registry before o' := by
  simp only [led, List.filterMap_append, List.filterMap_cons, List.filterMap_nil, h,
    Script.filter_concat, List.mem_eraseDups]
  by_cases ho : o' = o
  · subst ho
    rw [if_pos rfl, eraseDups_concat]
    simp only [true_and, ite_not]
  · rw [if_neg ho, if_neg fun hboth => ho hboth.1]

theorem led_of_none {piece : Piece} (h : definition.wire? registry piece = none)
    (before : List Piece) :
    definition.led registry (before ++ [piece]) = definition.led registry before := by
  funext o
  simp only [led, List.filterMap_append, List.filterMap_cons, List.filterMap_nil, h,
    List.append_nil]

end GraphDef

theorem GraphDef.missing_map {ε α γ : Type} (found : Option α) (f : α → γ) (fault : ε) :
    missing (found.map f) fault = missing found fault := by
  rw [missing, missing, Option.isSome_map]

theorem index_answers {found : Option Nat} {error : ScriptError} {fault : LoadError} :
    Answers ((found.elim (Except.error error) .ok).mapError fun _ => fault)
      (GraphDef.missing found fault) (found = some ·) := by
  rcases found with _ | index
  · rfl
  · exact .ok rfl

/-- A value link takes one more cell unless there is a reason not to. -/
theorem Script.connectValue_answers {script : Script β} {ref : ValueLinkRef} {cell : NodeId}
    {node : Node β} {link : ValueLink} (hc : script.node? cell = some node)
    (hl : script.link? ref = some link) :
    Answers (script.connectValue ref cell) (link.refusal? script.containsNode ref.node node)
      (· = script.modifyLink ref (·.attach cell)) := by
  obtain ⟨owner, ho, hlink⟩ := Option.bind_eq_some_iff.1 hl
  unfold connectValue ValueLink.refusal?
  rcases htype : node.valueType with _ | type
  · simp only [hc, htype, id_of_node? hc]
    rfl
  simp only [hc, ho, hlink, htype, id_of_node? hc, Bool.and_eq_true, Bool.not_eq_true',
    decide_eq_true_eq]
  split
  · rfl
  split
  · rfl
  split
  · rfl
  · exact .ok rfl

/-- Only the type and the id of a cell count. -/
theorem ValueLink.refusal?_of_bare (link : ValueLink) (present : NodeId → Bool) (owner : NodeId)
    {node now : Node β} (h : now.bare = node.bare) :
    link.refusal? present owner node = link.refusal? present owner now := by
  have hid : now.id = node.id := (congrArg Node.id h :)
  have htype : now.valueType = node.valueType := (congrArg Node.valueType h :)
  rw [refusal?, refusal?, hid, htype]

namespace GraphDef.Joined

variable {definition : GraphDef} {registry : Registry β} {pieces : List Piece} {loaded : Loaded β}
  (h : definition.Joined registry pieces loaded)

include h

theorem node?_eq (key : String) :
    loaded.node? key = (definition.node? registry key).map (·.id) := by
  have hentries : (homes definition.preorder 0).map (·.2) = definition.entries := nodes_homes _ 0
  have hids : (definition.created registry).map (·.id) = nodeIds 0 definition.entries.length := by
    rw [created, registry.ids_nodes _ 0, ← hentries, List.length_map]
    intro home hhome
    exact h.accepted _ (hentries ▸ List.mem_map_of_mem hhome)
  rw [Loaded.node?, h.keys, get?_labels, hentries, GraphDef.node?]
  rcases hk : position? (fun node : NodeDef => node.key == key) definition.entries with _ | k
  · rfl
  · have hid := congrArg (·[k]?) hids
    simp only [nodeIds, List.getElem?_map, List.getElem?_range' (lt_of_position? hk)] at hid
    rw [Option.bind_some, hid, Option.map_some, Option.map_some, Nat.one_mul]

theorem ids : loaded.script.nodes.map (·.id) = (definition.created registry).map (·.id) := by
  have hids := congrArg (List.map (·.id)) h.nodes
  rw [List.map_map, List.map_map] at hids
  exact hids

theorem containsNode_eq : loaded.script.containsNode = definition.creates registry := by
  have hany (nodes : List (Node β)) (id : NodeId) :
      nodes.any (·.id = id) = (nodes.map (·.id)).any (· = id) := by
    rw [List.any_map]
    rfl
  funext id
  rw [Script.containsNode, Script.node?, List.isSome_find?, hany, h.ids, ← hany]
  rfl

/-- A node that was created is there, but for what it has been joined to. -/
theorem find {node : Node β} (hn : node ∈ definition.created registry) :
    ∃ now, loaded.script.node? node.id = some now ∧ now.bare = node.bare := by
  have hmem := List.mem_map_of_mem (f := Node.bare) hn
  rw [← h.nodes] at hmem
  obtain ⟨now, hnow, hsame⟩ := List.mem_map.1 hmem
  have hnodup : (loaded.script.nodes.map (·.id)).Nodup :=
    h.ids ▸ registry.nodup_nodes (homes definition.preorder 0) 0
  have hid : now.id = node.id := (congrArg Node.id hsame :)
  exact ⟨now, hid ▸ find?_of_mem hnodup hnow, hsame⟩

/-! ## What names lead to -/

theorem resolve_answers (key : String) :
    Answers (loaded.resolve key) (definition.keyFault? registry key) fun id => ∃ now node,
      loaded.script.node? id = some now ∧ definition.node? registry key = some node
        ∧ now.bare = node.bare := by
  rw [Loaded.resolve, h.node?_eq, keyFault?]
  rcases hn : definition.node? registry key with _ | node
  · rfl
  · obtain ⟨now, hnow, hsame⟩ := h.find (mem_created hn)
    exact .ok ⟨now, node, hnow, rfl, hsame⟩

omit h

variable {key name : String} {id : NodeId} {now node : Node β}
  (hnow : loaded.script.node? id = some now)
  (hn : definition.node? registry key = some node) (hsame : now.bare = node.bare)

include hnow hn hsame

theorem output?_eq : definition.output? registry key name =
    (now.outputIndex? name).map (⟨id, ·⟩) := by
  have hid : now.id = node.id := (congrArg Node.id hsame :)
  have hindex : node.outputIndex? name = now.outputIndex? name :=
    position?_of_map_eq (Node.of_bare hsame).2.1.symm name
  rw [output?, hn, Option.bind_some, hindex, ← hid, Script.id_of_node? hnow]

theorem input?_eq : definition.input? registry key name =
    (now.inputIndex? name).map (⟨id, ·⟩) := by
  have hid : now.id = node.id := (congrArg Node.id hsame :)
  have hindex : node.inputIndex? name = now.inputIndex? name :=
    position?_of_map_eq (Node.of_bare hsame).1.symm name
  rw [input?, hn, Option.bind_some, hindex, ← hid, Script.id_of_node? hnow]

theorem link?_eq : definition.link? registry key name =
    (now.linkIndex? name).bind fun index => (node.links[index]?).map (⟨⟨id, index⟩, ·⟩) := by
  have hid : now.id = node.id := (congrArg Node.id hsame :)
  have hnames := congrArg (List.map (·.name)) (Node.of_bare hsame).2.2.1
  rw [List.map_map, List.map_map] at hnames
  have hindex : node.linkIndex? name = now.linkIndex? name := position?_of_map_eq hnames.symm name
  rw [link?, hn, Option.bind_some, hindex, ← hid, Script.id_of_node? hnow]

theorem outputIndex_answers {fault : LoadError} :
    Answers ((loaded.script.outputIndex id name).mapError fun _ => fault)
      (missing (definition.output? registry key name) fault) fun index =>
        definition.output? registry key name = some ⟨id, index⟩
          ∧ loaded.script.outputIndex id name = .ok index
          ∧ (loaded.script.output? ⟨id, index⟩).isSome := by
  have hindex : loaded.script.outputIndex id name =
      (now.outputIndex? name).elim (.error (.linkNotFound id name)) .ok := by
    rw [Script.outputIndex, hnow]
  rw [output?_eq hnow hn hsame, missing_map, hindex]
  refine index_answers.imp fun index hfound => ?_
  rw [hfound, Script.output?, hnow, Option.bind_some, List.getElem?_eq_getElem
    (lt_of_position? hfound)]
  exact ⟨rfl, rfl, rfl⟩

theorem inputIndex_answers {fault : LoadError} :
    Answers ((loaded.script.inputIndex id name).mapError fun _ => fault)
      (missing (definition.input? registry key name) fault) fun index =>
        definition.input? registry key name = some ⟨id, index⟩
          ∧ loaded.script.inputIndex id name = .ok index
          ∧ (loaded.script.input? ⟨id, index⟩).isSome := by
  have hindex : loaded.script.inputIndex id name =
      (now.inputIndex? name).elim (.error (.linkNotFound id name)) .ok := by
    rw [Script.inputIndex, hnow]
  rw [input?_eq hnow hn hsame, missing_map, hindex]
  refine index_answers.imp fun index hfound => ?_
  rw [hfound, Script.input?, hnow, Option.bind_some, List.getElem?_eq_getElem
    (lt_of_position? hfound)]
  exact ⟨rfl, rfl, rfl⟩

/-- A value link that a name leads to is there as it was created, but for what is bound to it. -/
theorem linkIndex_answers {fault : LoadError} :
    Answers ((loaded.script.linkIndex id name).mapError fun _ => fault)
      (missing (definition.link? registry key name) fault) fun index => ∃ link created,
        definition.link? registry key name = some (⟨id, index⟩, created)
          ∧ loaded.script.linkIndex id name = .ok index
          ∧ loaded.script.link? ⟨id, index⟩ = some link ∧ link.clear = created.clear := by
  have hindex : loaded.script.linkIndex id name =
      (now.linkIndex? name).elim (.error (.linkNotFound id name)) .ok := by
    rw [Script.linkIndex, hnow]
  -- The value links are the same ones but for their bindings, and as many.
  have hlinks := (Node.of_bare hsame).2.2.1
  have hcreated {index : Nat} (hfound : now.linkIndex? name = some index) :
      ∃ link created, now.links[index]? = some link ∧ node.links[index]? = some created
        ∧ link.clear = created.clear := by
    have hlt : index < now.links.length := lt_of_position? hfound
    have hat := congrArg (·[index]?) hlinks
    simp only [List.getElem?_map, List.getElem?_eq_getElem hlt, Option.map_some] at hat
    obtain ⟨created, hc, hclear⟩ := Option.map_eq_some_iff.1 hat.symm
    exact ⟨_, created, List.getElem?_eq_getElem hlt, hc, hclear.symm⟩
  have hmissing : missing (definition.link? registry key name) fault =
      missing (now.linkIndex? name) fault := by
    rw [link?_eq hnow hn hsame]
    rcases hfound : now.linkIndex? name with _ | index
    · rfl
    · obtain ⟨link, created, -, hc, -⟩ := hcreated hfound
      rw [Option.bind_some, hc]
      rfl
  rw [hmissing, hindex]
  refine index_answers.imp fun index hfound => ?_
  obtain ⟨link, created, hlink, hc, hclear⟩ := hcreated hfound
  refine ⟨link, created, ?_, ?_, ?_, hclear⟩
  · rw [link?_eq hnow hn hsame, hfound, Option.bind_some, hc]
    rfl
  · rw [hfound]
    rfl
  · rw [Script.link?, hnow, Option.bind_some]
    exact hlink

omit hnow hn hsame

/-! ## One more piece -/

include h

theorem connect {piece : Piece} {o : OutputRef} {i : InputRef}
    (hw : definition.wire? registry piece = some (o, i))
    (hb : definition.bond? registry piece = none) (ho : (loaded.script.output? o).isSome)
    (hi : (loaded.script.input? i).isSome) : definition.Joined registry (pieces ++ [piece])
      { loaded with script := (loaded.script.connect o i).2 } := by
  have hunwired := loaded.script.unwired_connect o i
  refine ⟨h.keys, ?_, ?_, h.accepted, h.paired.connect o i, fun o' => ?_, fun ref => ?_⟩
  · rw [← h.graphs]
    exact (congrArg Script.graphs hunwired :)
  · rw [← h.nodes]
    exact congrArg Script.nodes (Script.bare_of_unwired hunwired)
  · rw [led_of_wire hw, ← h.targets, ← h.targets]
    by_cases hit : i ∈ loaded.script.targets o
    · rw [Script.connect_of_not_free fun hfree => hfree.2.2.1 hit, if_neg fun hnew => hnew.2 hit]
    · have hfree : loaded.script.Free o i :=
        ⟨ho, hi, hit, fun hold => hit ((h.paired.both o i).2 hold)⟩
      rw [(Script.wiring_connect hfree).2.1]
      simp only [hit, not_false_eq_true, and_true]
  · rw [listed, held_of_none hb, ← listed, ← h.bound, Script.bound,
      Script.link?_of_unwired hunwired]
    rfl

theorem attach {piece : Piece} {ref : ValueLinkRef} {cell : NodeId} {link : ValueLink}
    (hw : definition.wire? registry piece = none)
    (hb : definition.bond? registry piece = some (ref, cell))
    (hl : loaded.script.link? ref = some link) : definition.Joined registry (pieces ++ [piece])
      { loaded with script := loaded.script.modifyLink ref (·.attach cell) } := by
  have hbare := loaded.script.bare_modifyLink ref (f := (·.attach cell)) fun _ => rfl
  have hwiring := loaded.script.wiring_modifyLink ref (·.attach cell)
  refine ⟨h.keys, h.graphs, ?_, h.accepted, h.paired.of_wiring hwiring, fun o => ?_,
    fun ref' => ?_⟩
  · rw [← h.nodes]
    exact congrArg Script.nodes hbare
  · rw [led_of_none hw, ← h.targets, hwiring.1]
  · rw [listed, held_of_bond hb, Script.bound_attach hl]
    split
    · rename_i heq
      rw [h.bound, heq, listed, List.append_assoc]
    · rw [h.bound, listed]

theorem wire_answers (link : LinkDef) :
    Answers (loaded.wire link) (definition.linkFault? registry link)
      (definition.Joined registry (pieces ++ [.link link])) := by
  refine (h.resolve_answers link.source).bind fun source ⟨_, _, hfrom, hf, hsame⟩ => ?_
  refine (h.resolve_answers link.target).bind fun target ⟨_, _, hto, ht, hsame'⟩ => ?_
  refine (outputIndex_answers hfrom hf hsame).bind fun o ⟨hdo, ho, hout⟩ => ?_
  rw [← Option.or_none (o := missing _ _)]
  refine (inputIndex_answers hto ht hsame').bind fun i ⟨hdi, hi, hin⟩ => ?_
  have hw : definition.wire? registry (.link link) = some (⟨source, o⟩, ⟨target, i⟩) := by
    rw [wire?, hdo, hdi, Option.bind_some, Option.map_some]
  refine ⟨_, bind_eq_ok.2 ⟨_, mapError_eq_ok.2 ?_, rfl⟩, h.connect hw rfl hout hin⟩
  exact bind_eq_ok.2 ⟨o, ho, bind_eq_ok.2 ⟨i, hi, rfl⟩⟩

theorem bind_answers (binding : BindingDef) :
    Answers (loaded.bind binding) (definition.bindingFault? registry pieces binding)
      (definition.Joined registry (pieces ++ [.binding binding])) := by
  refine (h.resolve_answers binding.node).bind fun owner ⟨_, _, hnode, hn, hsame⟩ => ?_
  refine (h.resolve_answers binding.cell).bind fun cell ⟨held, node, hheld, hc, hcell⟩ => ?_
  refine (linkIndex_answers hnode hn hsame).bind fun index found => ?_
  obtain ⟨link, created, hdef, hindex, hl, hclear⟩ := found
  have hbound : { created with bound := definition.listed registry pieces ⟨owner, index⟩ } =
      link := by
    rw [← h.bound, Script.bound_of_link? hl]
    exact congrArg (fun cleared : ValueLink => { cleared with bound := link.bound }) hclear.symm
  have hw : definition.wire? registry (.binding binding) = none := rfl
  have hb : definition.bond? registry (.binding binding) = some (⟨owner, index⟩, cell) := by
    have hid : held.id = node.id := (congrArg Node.id hcell :)
    rw [bond?_eq_some hdef hc, ← hid, Script.id_of_node? hheld]
  have hmade := Script.connectValue_answers hheld hl
  rw [h.containsNode_eq, ← link.refusal?_of_bare _ _ hcell] at hmade
  rw [hdef, hc, Option.bind_some, Option.bind_some, hbound]
  have hname : loaded.script.connectValueByName owner binding.link cell =
      loaded.script.connectValue ⟨owner, index⟩ cell := by
    rw [Script.connectValueByName, hindex]
    rfl
  rw [hname, ← Option.or_none (o := Option.map _ _)]
  refine (hmade.mapError LoadError.core).bind fun script heq => ?_
  subst heq
  exact .ok (h.attach hw hb hl)

theorem join_answers (graph : GraphDef) :
    Answers (loaded.join graph) (firstFault (definition.fault? registry) pieces graph.joins)
      (definition.Joined registry (pieces ++ graph.joins)) := by
  have hone : ∀ (before : List Piece) (piece : Piece), firstFault (definition.fault? registry)
      before [piece] = definition.fault? registry before piece := by
    intro before piece
    rw [firstFault, firstFault, Option.or_none]
  rw [joins, firstFault_append, List.map_eq_flatMap, List.map_eq_flatMap, ← List.append_assoc]
  have hwire : ∀ before s link, definition.Joined registry before s →
      Answers (s.wire link) (firstFault (definition.fault? registry) before [.link link])
        (definition.Joined registry (before ++ [.link link])) := by
    intro before s link hs
    rw [hone]
    exact hs.wire_answers link
  have hbind : ∀ before s binding, definition.Joined registry before s →
      Answers (s.bind binding) (firstFault (definition.fault? registry) before [.binding binding])
        (definition.Joined registry (before ++ [.binding binding])) := by
    intro before s binding hs
    rw [hone]
    exact hs.bind_answers binding
  exact (Answers.foldlM hwire graph.links pieces loaded h).bind
    (Answers.foldlM hbind graph.bindings _)

end GraphDef.Joined

/-! ## The whole definition -/

namespace GraphDef

variable {definition : GraphDef} {registry : Registry β}

theorem exists_builder {placed : NodeBuilder β → Prop} (places : registry.Places placed)
    {node : Node β} (hn : node ∈ definition.created registry) :
    ∃ builder id graph, placed builder ∧ node = builder.build id graph := by
  obtain ⟨⟨home, k⟩, -, hnode⟩ := List.mem_filterMap.1 hn
  obtain ⟨builder, hsome, rfl⟩ := Option.map_eq_some_iff.1 hnode
  rcases hc : registry.create home.2.type home.2.properties with e | created
  · rw [hc] at hsome
    cases hsome
  · rw [hc] at hsome
    obtain rfl := Option.some.inj hsome
    exact ⟨created, _, _, places _ _ _ hc, rfl⟩

/-- New value links bring nothing along. -/
theorem brought_eq_nil (places : registry.Places NodeBuilder.Declared) (ref : ValueLinkRef) :
    definition.brought registry ref = [] := by
  unfold brought
  generalize hfound : ((definition.created registry).find? _).bind _ = found
  rcases found with _ | link
  · rfl
  · obtain ⟨node, hn, hlink⟩ := Option.bind_eq_some_iff.1 hfound
    obtain ⟨builder, id, graph, declared, rfl⟩ :=
      exists_builder places (List.mem_of_find?_eq_some hn)
    exact declared.unbound link (List.mem_of_getElem? hlink)

theorem Placed.joined {loaded : Loaded β} (h : definition.Placed registry loaded)
    (places : registry.Places NodeBuilder.Made) :
    definition.Joined registry (definition.entries.map .node) loaded := by
  have made : ∀ node ∈ loaded.script.nodes, (∀ link ∈ node.inputs, link.connected = [])
      ∧ ∀ link ∈ node.outputs, link.connected = [] := by
    intro node hn
    obtain ⟨builder, id, graph, made, rfl⟩ := exists_builder places (h.nodes ▸ hn)
    exact made.unconnected
  have ht := Script.targets_of_unconnected fun node hn => (made node hn).2
  have hs := Script.sources_of_unconnected fun node hn => (made node hn).1
  have hnone : (definition.entries.map Piece.node).filterMap (definition.wire? registry) = []
      ∧ (definition.entries.map Piece.node).filterMap (definition.bond? registry) = [] := by
    constructor <;> rw [List.filterMap_eq_nil_iff, List.forall_mem_map] <;> exact fun _ _ => rfl
  refine ⟨h.keys, h.graphs, congrArg _ h.nodes, h.accepted, .of_no_wiring ht hs, fun o => ?_,
    fun ref => ?_⟩
  · rw [ht, led, hnone.1]
    rfl
  · rw [listed, held, hnone.2, Script.bound, Script.link?, Script.node?, h.nodes]
    exact (List.append_nil _).symm

theorem build_answers (places : registry.Places NodeBuilder.Made) (definition : GraphDef) :
    Answers (definition.build registry)
      (firstFault (definition.fault? registry) [] definition.pieces)
      (definition.Joined registry definition.pieces) := by
  rw [pieces, firstFault_append]
  refine (Loaded.placed_answers definition registry).bind fun placed hplaced => ?_
  have hjoin : ∀ before s graph, definition.Joined registry before s →
      Answers (s.join graph) (firstFault (definition.fault? registry) before (joins graph))
        (definition.Joined registry (before ++ joins graph)) :=
    fun before s graph hs => hs.join_answers graph
  exact Answers.foldlM hjoin definition.preorder _ placed (hplaced.joined places)

/-- What a definition is built to. -/
structure Built (definition : GraphDef) (registry : Registry β) (loaded : Loaded β) : Prop where
  /-- Keys lead to nodes that are numbered in the order of the tree. -/
  keys : loaded.keys = labels (homes definition.preorder 0) 0
  graphs : loaded.script.graphs = definition.graphs none 0 0
  nodes : loaded.script.nodes.map Node.bare = (definition.created registry).map Node.bare
  connected : ∀ o i, loaded.script.Connected o i ↔
    ∃ graph ∈ definition.preorder, ∃ link ∈ graph.links,
      definition.output? registry link.source link.output = some o
        ∧ definition.input? registry link.target link.input = some i
  targets : ∀ o, loaded.script.targets o = definition.led registry definition.pieces o
  paired : loaded.script.Paired
  bound : ∀ ref, loaded.script.bound ref = definition.listed registry definition.pieces ref

theorem mem_led {pieces : List Piece} {o : OutputRef} {i : InputRef} :
    i ∈ definition.led registry pieces o ↔
      ∃ piece ∈ pieces, definition.wire? registry piece = some (o, i) := by
  rw [led, List.mem_eraseDups]
  constructor
  · intro hi
    obtain ⟨⟨o', i⟩, hled, rfl⟩ := List.mem_map.1 hi
    obtain ⟨hwires, ho⟩ := List.mem_filter.1 hled
    obtain rfl : o' = o := of_decide_eq_true ho
    exact List.mem_filterMap.1 hwires
  · intro hpiece
    exact List.mem_map.2 ⟨(o, i), List.mem_filter.2 ⟨List.mem_filterMap.2 hpiece,
      decide_eq_true rfl⟩, rfl⟩

theorem link_mem_pieces {link : LinkDef} :
    .link link ∈ definition.pieces ↔ ∃ graph ∈ definition.preorder, link ∈ graph.links := by
  simp [pieces, joins]

theorem Joined.built {loaded : Loaded β}
    (h : definition.Joined registry definition.pieces loaded) :
    definition.Built registry loaded := by
  refine ⟨h.keys, h.graphs, h.nodes, fun o i => ?_, h.targets, h.paired, h.bound⟩
  rw [Script.Connected, h.targets, mem_led]
  constructor
  · rintro ⟨piece, hp, hw⟩
    cases piece with
    | node node => cases hw
    | link link =>
      obtain ⟨graph, hg, hl⟩ := link_mem_pieces.1 hp
      obtain ⟨o', ho, hw⟩ := Option.bind_eq_some_iff.1 hw
      obtain ⟨i', hi, heq⟩ := Option.map_eq_some_iff.1 hw
      obtain ⟨rfl, rfl⟩ := Prod.mk.inj heq
      exact ⟨graph, hg, link, hl, ho, hi⟩
    | binding binding => cases hw
  · rintro ⟨graph, hg, link, hl, ho, hi⟩
    refine ⟨.link link, link_mem_pieces.2 ⟨graph, hg, hl⟩, ?_⟩
    rw [wire?, ho, hi, Option.bind_some, Option.map_some]

/-- A definition is built exactly if it is in order, and what is built then can be read off it.
Otherwise it fails with the fault of the first piece that has one. A value link lists what the
definition binds to it after what it has been created with, which is nothing unless the factory
describes it so. -/
theorem build_spec (places : registry.Places NodeBuilder.Made) (definition : GraphDef) :
    ((∃ loaded, definition.build registry = .ok loaded) ↔ definition.Buildable registry)
      ∧ (∀ loaded, definition.build registry = .ok loaded → definition.Built registry loaded)
      ∧ (∀ e, definition.build registry = .error e ↔ ∃ before piece after,
        definition.pieces = before ++ piece :: after ∧ definition.Permits registry before
          ∧ definition.fault? registry before piece = some e)
      ∧ (registry.Places NodeBuilder.Declared → ∀ ref, definition.brought registry ref = []) := by
  have h := build_answers places definition
  refine ⟨?_, fun loaded hbuilt => (h.right_of_ok hbuilt).built, fun e => ?_, brought_eq_nil⟩
  · rw [h.isOk_iff, ← permits_iff, permits_pieces]
  · rw [h.error_iff, firstFault_eq_some]
    simp only [← permits_iff, List.nil_append]

/-- A button and a panel with a lamp and a dial. The panel connects the button to the dial once
more. -/
def porch : GraphDef where
  name := "porch"
  nodes := [{ key := "button", name := "Toggle", category := "Core" }]
  links := [⟨"button", "Out", "dial", "Reset"⟩]
  bindings := [⟨"button", "Value", "lamp"⟩]
  subGraphs :=
    [ { name := "panel"
        nodes :=
          [ { key := "lamp", name := "Boolean", category := "Value" }
          , { key := "dial", name := "Switch", category := "Core" } ]
        links := [⟨"button", "Out", "dial", "In"⟩, ⟨"button", "Out", "dial", "Reset"⟩] } ]

/-- The porch is built with the connections in the order in which they first occur. If its binding
is given twice, the second one is refused. -/
theorem build_spec_of_porch :
    (∃ loaded, porch.build Standard.registry = .ok loaded
      ∧ loaded.script.targets ⟨⟨0⟩, 0⟩ = [⟨⟨2⟩, 1⟩, ⟨⟨2⟩, 0⟩]
      ∧ loaded.script.bound ⟨⟨0⟩, 0⟩ = [⟨1⟩])
      ∧ ({ porch with bindings := porch.bindings ++ porch.bindings } : GraphDef).build
        Standard.registry =
          .error (.core (.connectionRejected "node:1 is already bound to Value")) := by
  obtain ⟨hok, hright, -, hbrought⟩ := build_spec Standard.places_made porch
  constructor
  · have hnone : firstFault (porch.fault? Standard.registry) [] porch.pieces = none := by
      decide +kernel
    obtain ⟨loaded, hbuilt⟩ := hok.2 (permits_pieces.1 ((permits_iff _).2 hnone))
    have h := hright loaded hbuilt
    refine ⟨loaded, hbuilt, ?_, ?_⟩
    · rw [h.targets]
      decide +kernel
    · rw [h.bound, listed, hbrought Standard.places_declared]
      decide +kernel
  · obtain ⟨-, -, herror, -⟩ := build_spec Standard.places_made
      { porch with bindings := porch.bindings ++ porch.bindings }
    refine (herror _).2 ⟨porch.entries.map .node ++ porch.joins,
      .binding ⟨"button", "Value", "lamp"⟩,
      (GraphDef.preorderAll porch.subGraphs).flatMap joins, ?_, ?_, ?_⟩
    · rfl
    · rw [permits_iff]
      decide +kernel
    · decide +kernel

/-- The standard nodes and the copy of the parameters of the postbox. -/
def copies : Registry Standard :=
  ⟨Keyed.insert Standard.registry.factories (coreType "Copy") fun _ => Script.copyNode⟩

theorem copies_places_made : copies.Places NodeBuilder.Made := by
  intro type properties builder h
  by_cases htype : type = coreType "Copy"
  · have hcreate : copies.create type properties = Script.copyNode.withOverrides properties := by
      rw [Registry.create, copies, Keyed.get?_insert, if_pos htype.symm]
    exact .withOverrides properties (.link _ (.action _ _)) (hcreate ▸ h)
  · refine Standard.places_made type properties builder ?_
    rwa [Registry.create, copies, Keyed.get?_insert, if_neg (Ne.symm htype), ← Registry.create] at h

/-- A copy and a lamp. -/
def shelf : GraphDef where
  name := "shelf"
  nodes :=
    [ { key := "copy", name := "Copy", category := "Core" }
    , { key := "lamp", name := "Boolean", category := "Value" } ]

/-- The copy lists the lamp and a node that there is none of, although nothing is to be bound to it.
If the lamp is to be bound to it, once, this is refused. -/
theorem brought_of_shelf : Script.postbox.link? ⟨⟨0⟩, 0⟩ = some Script.paramLink
    ∧ Standard.registry.register (coreType "Copy") (fun _ => Script.copyNode) = .ok copies
    ∧ copies.Places NodeBuilder.Made
    ∧ (∃ loaded, shelf.build copies = .ok loaded
      ∧ shelf.held copies shelf.pieces ⟨⟨0⟩, 0⟩ = []
      ∧ loaded.script.bound ⟨⟨0⟩, 0⟩ = [⟨1⟩, ⟨2⟩] ∧ loaded.script.nodes.map (·.id) = [⟨0⟩, ⟨1⟩])
    ∧ ({ shelf with bindings := [⟨"copy", "Param", "lamp"⟩] } : GraphDef).build copies =
      .error (.core (.connectionRejected "node:1 is already bound to Param")) :=
  ⟨rfl, rfl, copies_places_made,
    ⟨_, rfl, by decide +kernel, by decide +kernel, by decide +kernel⟩, rfl⟩

end GraphDef

end FlowScript
