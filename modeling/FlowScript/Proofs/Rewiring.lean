import FlowScript.Proofs.Listing
import FlowScript.Proofs.Placing
import FlowScript.Proofs.WellTyped

/-!
# Wiring a script once more

The links and bindings that describe a script are its connections and bindings, one by one, in the
order in which they are listed at outputs and value links. Joined again to the nodes without
connections, each finds its ends by name and is listed in its old place (`rejoin`).
-/

namespace FlowScript

variable {β : Type}

/-! ## What joining leaves alone -/

/-- The node without connections, bindings and pulses. -/
def Node.bare (node : Node β) : Node β := node.reset node.behavior

/-- The node without connections, bindings, pulses and behavior. -/
def Node.hollow (node : Node β) : Node β := node.reset none

theorem Node.hollow_bare (node : Node β) : node.bare.hollow = node.hollow := by
  simp only [hollow, bare, reset, List.map_map]
  rfl

namespace Script

/-- The script without connections, bindings and pulses. -/
def bare (script : Script β) : Script β := { script with nodes := script.nodes.map .bare }

/-- The script without connections, bindings, pulses and behaviors. -/
def hollow (script : Script β) : Script β := { script with nodes := script.nodes.map .hollow }

variable {script script' : Script β}

theorem hollow_of_bare (h : script'.bare = script.bare) : script'.hollow = script.hollow := by
  have hollow_bare : ∀ s : Script β, s.bare.hollow = s.hollow := by
    intro s
    simp only [hollow, bare, List.map_map]
    congr 1
    refine List.map_congr_left fun n _ => ?_
    simp only [Function.comp, Node.hollow, Node.bare, Node.reset, List.map_map]
    rfl
  rw [← hollow_bare, h, hollow_bare]

theorem bare_of_unwired (h : script'.unwired = script.unwired) : script'.bare = script.bare := by
  have bare_unwired : ∀ s : Script β, s.unwired.bare = s.bare := by
    intro s
    simp only [bare, unwired, List.map_map]
    congr 1
    refine List.map_congr_left fun n _ => ?_
    simp only [Function.comp, Node.bare, Node.reset, Node.unwired, List.map_map]
    rfl
  rw [← bare_unwired, h, bare_unwired]

theorem bare_modifyLink (script : Script β) (ref : ValueLinkRef) {f : ValueLink → ValueLink}
    (hf : ∀ link, (f link).clear = link.clear) : (script.modifyLink ref f).bare = script.bare := by
  have hnodes := script.map_nodes_modifyNode ref.node (f := (·.modifyLink ref.index f)) Node.bare
    fun n => by simp only [Node.bare, Node.reset, Node.modifyLink, map_modify _ hf]
  simp only [bare, modifyLink, hnodes]
  rfl

theorem node?_of_hollow (h : script'.hollow = script.hollow) {id : NodeId} {node : Node β}
    (hn : script.node? id = some node) :
    ∃ node', script'.node? id = some node' ∧ node'.hollow = node.hollow := by
  obtain ⟨node', hn', hsame⟩ :=
    node?_of_alike (f := Node.hollow) (fun _ => rfl) (congrArg Script.nodes h.symm) hn
  exact ⟨node', hn', hsame.symm⟩

end Script

theorem Node.of_hollow {node node' : Node β} (h : node'.hollow = node.hollow) :
    node'.inputs.map (·.name) = node.inputs.map (·.name)
      ∧ node'.outputs.map (·.name) = node.outputs.map (·.name)
      ∧ node'.links.map ValueLink.clear = node.links.map ValueLink.clear
      ∧ node'.valueType = node.valueType := by
  simp only [hollow, reset, Node.mk.injEq] at h
  obtain ⟨-, -, -, -, hvalueType, hinputs, houtputs, hlinks, -, -⟩ := h
  have hin := congrArg (List.map (·.name)) hinputs
  have hout := congrArg (List.map (·.name)) houtputs
  simp only [List.map_map] at hin hout
  exact ⟨hin, hout, hlinks, hvalueType⟩

theorem Node.of_bare {node node' : Node β} (h : node'.bare = node.bare) :
    node'.inputs.map (·.name) = node.inputs.map (·.name)
      ∧ node'.outputs.map (·.name) = node.outputs.map (·.name)
      ∧ node'.links.map ValueLink.clear = node.links.map ValueLink.clear
      ∧ node'.valueType = node.valueType :=
  of_hollow (by rw [← hollow_bare, h, hollow_bare])

/-- A name stands for one input, for one output and for one value link of the node. -/
structure Node.Distinct (node : Node β) : Prop where
  inputs : (node.inputs.map (·.name)).Nodup
  outputs : (node.outputs.map (·.name)).Nodup
  links : (node.links.map (·.name)).Nodup

/-- Where names are the same, a name that stands for one element finds it in both lists. -/
theorem position?_of_names {α : Type} {name : α → String} {l l' : List α} {index : Nat} {a : α}
    (hn : (l.map name).Nodup) (h : l'.map name = l.map name) (ha : l[index]? = some a) :
    ∃ a', l'[index]? = some a' ∧ position? (name · == name a) l' = some index := by
  have hget := congrArg (·[index]?) h
  simp only [List.getElem?_map, ha, Option.map_some] at hget
  obtain ⟨a', ha', hname⟩ := Option.map_eq_some_iff.1 hget
  exact ⟨a', ha', hname ▸ position?_of_getElem? (h ▸ hn) ha'⟩

namespace Script

/-! ## Joining once more -/

/-- What it takes that the links which describe the script can be joined again: they are in order,
and names lead to what they stand for. -/
structure Joinable (script : Script β) (names : Names) (keys : Keys) : Prop where
  arena : script.Arena
  paired : script.Paired
  grounded : script.Grounded
  matched : script.Matched
  distinct : ∀ id node, script.node? id = some node → node.Distinct
  declares : ∀ id node, script.node? id = some node →
    (node.isValueNode = true ↔ node.valueType.isSome = true)
  resolves : ∀ id node, script.node? id = some node → Keyed.get? keys (names.get id) = some id

/-- The nodes of a script with the first of its connections and bindings joined again. -/
structure Rejoined (script : Script β) (keys : Keys) (wires : List (OutputRef × InputRef))
    (held : List (ValueLinkRef × NodeId)) (loaded : Loaded β) : Prop where
  keys : loaded.keys = keys
  hollow : loaded.script.hollow = script.hollow
  paired : loaded.script.Paired
  targets : ∀ o, loaded.script.targets o = (wires.filter (·.1 = o)).map (·.2)
  bound : ∀ ref, loaded.script.bound ref = (held.filter (·.1 = ref)).map (·.2)

theorem filter_concat {ρ τ : Type} [DecidableEq ρ] (l : List (ρ × τ)) (ref ref' : ρ) (item : τ) :
    ((l ++ [(ref, item)]).filter (·.1 = ref')).map (·.2) = if ref' = ref
      then (l.filter (·.1 = ref')).map (·.2) ++ [item] else (l.filter (·.1 = ref')).map (·.2) := by
  rw [List.filter_append, List.map_append]
  by_cases h : ref' = ref
  · simp [h]
  · simp [h, Ne.symm h]

variable {script : Script β} {names : Names} {keys : Keys}

namespace Joinable

theorem nodup_connectionList (hj : script.Joinable names keys) : script.connectionList.Nodup := by
  refine nodup_listing (nodup_refs hj.arena.nodup_nodes fun h => ?_) hj.paired.targets_nodup
  exact OutputRef.mk.inj h

end Joinable

namespace Rejoined

variable {wires : List (OutputRef × InputRef)} {held : List (ValueLinkRef × NodeId)}
  {loaded : Loaded β}

/-! ### What the names lead to -/

theorem key (hj : script.Joinable names keys) (h : script.Rejoined keys wires held loaded)
    {id : NodeId} {node : Node β} (hn : script.node? id = some node) :
    loaded.node? (names.get id) = some id := by
  rw [Loaded.node?, h.keys, hj.resolves id node hn]

theorem output (hj : script.Joinable names keys) (h : script.Rejoined keys wires held loaded)
    {o : OutputRef} {link : OutputLink} (ho : script.output? o = some link) :
    (loaded.script.output? o).isSome
      ∧ loaded.script.outputIndex o.node link.name = .ok o.index := by
  obtain ⟨node, hn, hlink⟩ := Option.bind_eq_some_iff.1 ho
  obtain ⟨node', hn', hsame⟩ := node?_of_hollow h.hollow hn
  obtain ⟨link', hlink', hindex⟩ := position?_of_names (hj.distinct _ _ hn).outputs
    (Node.of_hollow hsame).2.1 hlink
  constructor
  · rw [output?, hn', Option.bind_some, hlink', Option.isSome_some]
  · simp only [outputIndex, hn', Node.outputIndex?, hindex, Option.elim_some]

theorem input (hj : script.Joinable names keys) (h : script.Rejoined keys wires held loaded)
    {i : InputRef} {link : InputLink} (hi : script.input? i = some link) :
    (loaded.script.input? i).isSome
      ∧ loaded.script.inputIndex i.node link.name = .ok i.index := by
  obtain ⟨node, hn, hlink⟩ := Option.bind_eq_some_iff.1 hi
  obtain ⟨node', hn', hsame⟩ := node?_of_hollow h.hollow hn
  obtain ⟨link', hlink', hindex⟩ := position?_of_names (hj.distinct _ _ hn).inputs
    (Node.of_hollow hsame).1 hlink
  constructor
  · rw [input?, hn', Option.bind_some, hlink', Option.isSome_some]
  · simp only [inputIndex, hn', Node.inputIndex?, hindex, Option.elim_some]

theorem link (hj : script.Joinable names keys) (h : script.Rejoined keys wires held loaded)
    {ref : ValueLinkRef} {link : ValueLink} (hl : script.link? ref = some link) :
    ∃ link', loaded.script.link? ref = some link' ∧ link'.clear = link.clear
      ∧ loaded.script.linkIndex ref.node link.name = .ok ref.index := by
  obtain ⟨node, hn, hlink⟩ := Option.bind_eq_some_iff.1 hl
  obtain ⟨node', hn', hsame⟩ := node?_of_hollow h.hollow hn
  obtain ⟨-, -, hlinks, -⟩ := Node.of_hollow hsame
  have hnames := congrArg (List.map (·.name)) hlinks
  simp only [List.map_map] at hnames
  obtain ⟨link', hlink', hindex⟩ := position?_of_names (hj.distinct _ _ hn).links hnames hlink
  have hclear := congrArg (·[ref.index]?) hlinks
  simp only [List.getElem?_map, hlink, hlink', Option.map_some, Option.some.injEq] at hclear
  refine ⟨link', ?_, hclear, ?_⟩
  · rw [link?, hn', Option.bind_some, hlink']
  · simp only [linkIndex, hn', Node.linkIndex?, hindex, Option.elim_some]

/-! ### The next connection and the next binding -/

theorem free (hj : script.Joinable names keys) (h : script.Rejoined keys wires held loaded)
    {o : OutputRef} {i : InputRef} {rest : List (OutputRef × InputRef)}
    (hnext : script.connectionList = wires ++ (o, i) :: rest) : loaded.script.Free o i := by
  have hmem : (o, i) ∈ script.connectionList := by
    rw [hnext]
    exact List.mem_append_right _ List.mem_cons_self
  have hnodup := hj.nodup_connectionList
  rw [hnext, List.nodup_append] at hnodup
  have hit : i ∉ loaded.script.targets o := by
    rw [h.targets]
    intro hold
    obtain ⟨⟨o', i'⟩, hfound, rfl⟩ := List.mem_map.1 hold
    obtain ⟨hwired, heq⟩ := List.mem_filter.1 hfound
    obtain rfl : o' = o := by simpa using heq
    exact hnodup.2.2 _ hwired _ List.mem_cons_self rfl
  obtain ⟨hout, hin⟩ := hj.paired.resolves (mem_listing.1 hmem).2
  obtain ⟨link, ho⟩ := Option.isSome_iff_exists.1 hout
  obtain ⟨link', hi⟩ := Option.isSome_iff_exists.1 hin
  exact ⟨(h.output hj ho).1, (h.input hj hi).1, hit, fun hold => hit ((h.paired.both o i).2 hold)⟩

/-- The next connection is found by the names that describe it, and is made. -/
theorem wire (hj : script.Joinable names keys) (h : script.Rejoined keys wires held loaded)
    {o : OutputRef} {i : InputRef} {rest : List (OutputRef × InputRef)}
    (hnext : script.connectionList = wires ++ (o, i) :: rest) :
    ∃ loaded', loaded.wire (script.linkDef names (o, i)) = .ok loaded'
      ∧ script.Rejoined keys (wires ++ [(o, i)]) held loaded' := by
  have hmem : (o, i) ∈ script.connectionList := by
    rw [hnext]
    exact List.mem_append_right _ List.mem_cons_self
  obtain ⟨hout, hin⟩ := hj.paired.resolves (mem_listing.1 hmem).2
  obtain ⟨link, ho⟩ := Option.isSome_iff_exists.1 hout
  obtain ⟨link', hi⟩ := Option.isSome_iff_exists.1 hin
  obtain ⟨source, hs, -⟩ := Option.bind_eq_some_iff.1 ho
  obtain ⟨target, ht, -⟩ := Option.bind_eq_some_iff.1 hi
  have hdef : script.linkDef names (o, i) =
      ⟨names.get o.node, link.name, names.get i.node, link'.name⟩ := by
    simp only [linkDef, ho, hi, Option.elim_some]
  have hunwired := loaded.script.unwired_connect o i
  refine ⟨{ loaded with script := (loaded.script.connect o i).2 }, ?_, h.keys,
    (hollow_of_bare (bare_of_unwired hunwired)).trans h.hollow, h.paired.connect o i,
    fun o' => ?_, fun ref => ?_⟩
  · rw [hdef, Loaded.wire_iff]
    exact ⟨o.node, i.node, o.index, i.index, h.key hj hs, h.key hj ht, (h.output hj ho).2,
      (h.input hj hi).2, rfl⟩
  · rw [(wiring_connect (h.free hj hnext)).2.1, h.targets, filter_concat]
  · rw [Script.bound, link?_of_unwired hunwired]
    exact h.bound ref

/-- What is bound already comes first among what is to be bound, so that the next cell is taken. -/
theorem connectValue (hj : script.Joinable names keys) (h : script.Rejoined keys wires held loaded)
    {ref : ValueLinkRef} {cell : NodeId} {rest : List (ValueLinkRef × NodeId)}
    (hnext : script.bindingList = held ++ (ref, cell) :: rest) {link : ValueLink}
    (hl : script.link? ref = some link) {node : Node β} (hn : script.node? cell = some node)
    (hv : node.isValueNode = true) : loaded.script.connectValue ref cell =
      .ok (loaded.script.modifyLink ref (·.attach cell)) := by
  obtain ⟨type, htype⟩ := Option.isSome_iff_exists.1 ((hj.declares _ _ hn).1 hv)
  obtain ⟨node', hn', hsame⟩ := node?_of_hollow h.hollow hn
  obtain ⟨-, -, -, hvalueType⟩ := Node.of_hollow hsame
  obtain ⟨link', hl', hclear, -⟩ := h.link hj hl
  simp only [ValueLink.clear, ValueLink.mk.injEq] at hclear
  obtain ⟨-, -, hmultiple, hchecked, hdefault, -⟩ := hclear
  have hbound : link.bound = link'.bound ++ cell :: (rest.filter (·.1 = ref)).map (·.2) := by
    rw [← bound_of_link? hl, ← bound_of_link? hl', h.bound, ← hj.arena.filter_bindingList, hnext]
    simp
  refine connectValue_eq_ok.2 ⟨⟨node', type, link', hn', hvalueType.trans htype, hl', ?_, ?_, ?_⟩,
    rfl⟩
  · have hnodup := hj.grounded.nodup ref
    rw [bound_of_link? hl, hbound, List.nodup_append] at hnodup
    exact fun hold => hnodup.2.2 _ hold _ List.mem_cons_self rfl
  · rcases hm : link.allowsMultiple with _ | _
    · have hsingle := hj.grounded.single ref link hl hm
      rw [hbound, List.length_append, List.length_cons] at hsingle
      have hnone : link'.bound = [] := List.length_eq_zero_iff.1 (by omega)
      exact .inr (by rw [hnone, List.any_nil])
    · exact .inl (hmultiple.trans hm)
  · intro hcheck
    have hmem : cell ∈ link.bound := by
      rw [hbound]
      exact List.mem_append_right _ List.mem_cons_self
    have hmatched := hj.matched ref link hl (hchecked ▸ hcheck) cell hmem node hn
    rw [htype, Option.some.injEq] at hmatched
    rw [hmatched, ValueLink.type, ValueLink.type, hdefault]

/-- The next binding is found by the names that describe it, and is made. -/
theorem bind (hj : script.Joinable names keys) (h : script.Rejoined keys wires held loaded)
    {ref : ValueLinkRef} {cell : NodeId} {rest : List (ValueLinkRef × NodeId)}
    (hnext : script.bindingList = held ++ (ref, cell) :: rest) :
    ∃ loaded', loaded.bind (script.bindingDef names (ref, cell)) = .ok loaded'
      ∧ script.Rejoined keys wires (held ++ [(ref, cell)]) loaded' := by
  have hmem : (ref, cell) ∈ script.bindingList := by
    rw [hnext]
    exact List.mem_append_right _ List.mem_cons_self
  have hlisted := (mem_listing.1 hmem).2
  obtain ⟨link, hl, -⟩ := link?_of_mem_bound hlisted
  obtain ⟨owner, ho, -⟩ := Option.bind_eq_some_iff.1 hl
  obtain ⟨node, hn, hv⟩ := isCell_iff.1 (hj.grounded.cells ref cell hlisted)
  obtain ⟨link', hl', -, hindex⟩ := h.link hj hl
  have hmade := h.connectValue hj hnext hl hn hv
  have hdef : script.bindingDef names (ref, cell) =
      ⟨names.get ref.node, link.name, names.get cell⟩ := by
    simp only [bindingDef, hl, Option.elim_some]
  have hbare := loaded.script.bare_modifyLink ref (f := (·.attach cell)) fun _ => rfl
  refine ⟨{ loaded with script := loaded.script.modifyLink ref (·.attach cell) }, ?_, h.keys,
    (hollow_of_bare hbare).trans h.hollow, h.paired.connectValue hmade, fun o => ?_,
    fun ref' => ?_⟩
  · rw [hdef, Loaded.bind_iff]
    exact ⟨ref.node, cell, ref.index, _, h.key hj ho, h.key hj hn, hindex, hmade, rfl⟩
  · rw [(loaded.script.wiring_modifyLink ref _).1]
    exact h.targets o
  · rw [bound_attach hl', filter_concat, h.bound, h.bound]
    split
    · rename_i heq
      rw [heq]
    · rfl

theorem foldlM_wire (hj : script.Joinable names keys) {rest : List (OutputRef × InputRef)} :
    ∀ (next : List (OutputRef × InputRef)) {wires : List (OutputRef × InputRef)}
      {loaded : Loaded β}, script.Rejoined keys wires held loaded →
        script.connectionList = wires ++ (next ++ rest) →
        ∃ loaded', (next.map (script.linkDef names)).foldlM Loaded.wire loaded = .ok loaded'
          ∧ script.Rejoined keys (wires ++ next) held loaded'
  | [], wires, loaded, h, _ => ⟨loaded, rfl, by rwa [List.append_nil]⟩
  | (o, i) :: next, wires, loaded, h, hnext => by
    obtain ⟨between, hw, hb⟩ := h.wire hj hnext
    obtain ⟨loaded', hl, h'⟩ := foldlM_wire hj next hb (by simpa using hnext)
    refine ⟨loaded', ?_, by simpa using h'⟩
    rw [List.map_cons, List.foldlM_cons]
    exact bind_eq_ok.2 ⟨between, hw, hl⟩

theorem foldlM_bind (hj : script.Joinable names keys) {rest : List (ValueLinkRef × NodeId)} :
    ∀ (next : List (ValueLinkRef × NodeId)) {held : List (ValueLinkRef × NodeId)}
      {loaded : Loaded β}, script.Rejoined keys wires held loaded →
        script.bindingList = held ++ (next ++ rest) →
        ∃ loaded', (next.map (script.bindingDef names)).foldlM Loaded.bind loaded = .ok loaded'
          ∧ script.Rejoined keys wires (held ++ next) loaded'
  | [], held, loaded, h, _ => ⟨loaded, rfl, by rwa [List.append_nil]⟩
  | (ref, cell) :: next, held, loaded, h, hnext => by
    obtain ⟨between, hw, hb⟩ := h.bind hj hnext
    obtain ⟨loaded', hl, h'⟩ := foldlM_bind hj next hb (by simpa using hnext)
    refine ⟨loaded', ?_, by simpa using h'⟩
    rw [List.map_cons, List.foldlM_cons]
    exact bind_eq_ok.2 ⟨between, hw, hl⟩

/-- Graphs that describe what is left to be joined are joined, and then nothing is left. -/
theorem foldlM_join (hj : script.Joinable names keys) : ∀ (graphs : List GraphDef)
    {wires wiring : List (OutputRef × InputRef)} {held holding : List (ValueLinkRef × NodeId)}
    {loaded : Loaded β}, script.Rejoined keys wires held loaded →
      script.connectionList = wires ++ wiring → script.bindingList = held ++ holding →
      graphs.flatMap (·.links) = wiring.map (script.linkDef names) →
      graphs.flatMap (·.bindings) = holding.map (script.bindingDef names) →
      ∃ loaded', graphs.foldlM Loaded.join loaded = .ok loaded'
        ∧ script.Rejoined keys script.connectionList script.bindingList loaded'
  | [], wires, wiring, held, holding, loaded, h, hw, hh, hl, hb => by
    obtain rfl := List.map_eq_nil_iff.1 hl.symm
    obtain rfl := List.map_eq_nil_iff.1 hb.symm
    rw [List.append_nil] at hw hh
    exact ⟨loaded, rfl, hw ▸ hh ▸ h⟩
  | graph :: graphs, wires, wiring, held, holding, loaded, h, hw, hh, hl, hb => by
    rw [List.flatMap_cons] at hl hb
    obtain ⟨first, wiring, rfl, hfirst, hrest⟩ := List.map_eq_append_iff.1 hl.symm
    obtain ⟨first', holding, rfl, hfirst', hrest'⟩ := List.map_eq_append_iff.1 hb.symm
    obtain ⟨wired, hwire, h⟩ := foldlM_wire hj first h hw
    obtain ⟨joined, hbind, h⟩ := foldlM_bind hj first' h hh
    obtain ⟨loaded', hl, h'⟩ := foldlM_join hj graphs h (by rw [hw, List.append_assoc])
      (by rw [hh, List.append_assoc]) hrest.symm hrest'.symm
    refine ⟨loaded', ?_, h'⟩
    rw [List.foldlM_cons]
    refine bind_eq_ok.2 ⟨joined, bind_eq_ok.2 ⟨wired, ?_, ?_⟩, hl⟩
    · rw [← hfirst]
      exact hwire
    · rw [← hfirst']
      exact hbind

theorem start {loaded : Loaded β} (hk : loaded.keys = keys)
    (hh : loaded.script.hollow = script.hollow)
    (hn : ∀ node ∈ loaded.script.nodes, ∃ (old : Node β) (b : Option β), node = old.reset b) :
    script.Rejoined keys [] [] loaded := by
  have ht : ∀ o, loaded.script.targets o = [] := targets_of_unconnected fun node hmem link hl => by
    obtain ⟨old, b, rfl⟩ := hn node hmem
    obtain ⟨_, -, rfl⟩ := List.mem_map.1 hl
    rfl
  have hs : ∀ i, loaded.script.sources i = [] := sources_of_unconnected fun node hmem link hl => by
    obtain ⟨old, b, rfl⟩ := hn node hmem
    obtain ⟨_, -, rfl⟩ := List.mem_map.1 hl
    rfl
  refine ⟨hk, hh, .of_no_wiring ht hs, ht, fun ref => ?_⟩
  rcases hl : loaded.script.link? ref with _ | link
  · rw [Script.bound, hl, Option.elim_none]
    rfl
  · obtain ⟨node, hnode, hlink⟩ := Option.bind_eq_some_iff.1 hl
    obtain ⟨old, b, rfl⟩ := hn node (List.mem_of_find?_eq_some hnode)
    simp only [Node.reset, List.getElem?_map] at hlink
    obtain ⟨_, -, rfl⟩ := Option.map_eq_some_iff.1 hlink
    rw [bound_of_link? hl, ValueLink.clear]
    rfl

end Rejoined

end Script

/-! ## What a description keeps -/

/-- Lists of elements that agree in two parts agree in what the parts make up. -/
theorem map_eq_of_parts {α γ δ ε : Type} {shape : α → γ} {part : α → List δ} {whole : α → ε}
    (hw : ∀ a a', shape a' = shape a → part a' = part a → whole a' = whole a) {l l' : List α}
    (hs : l'.map shape = l.map shape)
    (hp : ∀ k : Nat, (l'[k]?).elim [] part = (l[k]?).elim [] part) :
    l'.map whole = l.map whole := by
  refine List.ext_getElem? fun k => ?_
  have hshape := congrArg (·[k]?) hs
  have hpart := hp k
  simp only [List.getElem?_map] at hshape ⊢
  rcases h' : l'[k]? with _ | a' <;> rcases h : l[k]? with _ | a <;>
    simp only [h, h', Option.map_none, Option.map_some, Option.elim_some, Option.some.injEq,
      reduceCtorEq] at hshape hpart ⊢
  exact hw a a' hshape hpart

/-- Lists with the same keys agree in what elements of the same key agree in. -/
theorem map_eq_of_keys {α α' γ κ : Type} {key : α → κ} {key' : α' → κ} {f : α → γ} {f' : α' → γ} :
    ∀ {l : List α} {l' : List α'}, l'.map key' = l.map key →
      (∀ a ∈ l, ∀ a' ∈ l', key' a' = key a → f' a' = f a) → l'.map f' = l.map f
  | [], [], _, _ => rfl
  | [], _ :: _, h, _ => by simp at h
  | _ :: _, [], h, _ => by simp at h
  | a :: l, a' :: l', h, hf => by
    simp only [List.map_cons, List.cons.injEq] at h
    rw [List.map_cons, List.map_cons, hf a List.mem_cons_self a' List.mem_cons_self h.1]
    rw [map_eq_of_keys h.2 fun b hb b' hb' =>
      hf b (List.mem_cons_of_mem _ hb) b' (List.mem_cons_of_mem _ hb')]

/-- The node without what its inputs are connected to, without pulses and without its behavior. -/
def Node.kept (node : Node β) : Node Unit where
  id := node.id
  graph := node.graph
  type := node.type
  kind := node.kind
  valueType := node.valueType
  inputs := node.inputs.map .clear
  outputs := node.outputs.map .skeleton
  links := node.links
  properties := node.properties
  behavior := none

theorem Node.kept_of_hollow {node node' : Node β} (h : node'.hollow = node.hollow)
    (ho : ∀ k : Nat, (node'.outputs[k]?).elim [] OutputLink.connected =
      (node.outputs[k]?).elim [] OutputLink.connected)
    (hl : ∀ k : Nat, (node'.links[k]?).elim [] ValueLink.bound =
      (node.links[k]?).elim [] ValueLink.bound) :
    node'.kept = node.kept := by
  simp only [hollow, reset, Node.mk.injEq] at h
  obtain ⟨hid, hgraph, htype, hkind, hvalueType, hinputs, houtputs, hlinks, hproperties, -⟩ := h
  have hout : node'.outputs.map OutputLink.skeleton = node.outputs.map .skeleton := by
    refine map_eq_of_parts (fun a a' hs hp => ?_) houtputs ho
    simp only [OutputLink.shape, OutputLink.mk.injEq] at hs
    simp only [OutputLink.skeleton, hs.1, hp]
  have hlink : node'.links.map (fun l => l) = node.links.map (fun l => l) := by
    refine map_eq_of_parts (fun a a' hs hp => ?_) hlinks hl
    simp only [ValueLink.clear, ValueLink.mk.injEq] at hs
    obtain ⟨hname, hoff, hmultiple, hchecked, hdefault, -⟩ := hs
    rcases a with ⟨⟩
    rcases a' with ⟨⟩
    simp only at hname hoff hmultiple hchecked hdefault hp
    rw [hname, hoff, hmultiple, hchecked, hdefault, hp]
  rw [List.map_id', List.map_id'] at hlink
  simp only [kept, hid, hgraph, htype, hkind, hvalueType, hinputs, hout, hlink, hproperties]

namespace Script

/-- The script without what inputs are connected to, without pulses and without behaviors. -/
def kept (script : Script β) : Script Unit := { script with nodes := script.nodes.map .kept }

variable {script script' : Script β}

/-- A script is kept if its nodes without connections are, and its connections and bindings. -/
theorem kept_of_hollow (ha : script.Arena) (ha' : script'.Arena)
    (h : script'.hollow = script.hollow) (ht : script'.targets = script.targets)
    (hb : script'.bound = script.bound) : script'.kept = script.kept := by
  simp only [hollow, Script.mk.injEq] at h
  obtain ⟨hgraphs, hnodes, htypes, hnextGraph, hnextNode⟩ := h
  have hkept : script'.nodes.map Node.kept = script.nodes.map .kept := by
    refine map_eq_of_keys hnodes fun node hn node' hn' hsame => ?_
    have hid : node'.id = node.id := (congrArg Node.id hsame :)
    have hfind := ha.node?_eq hn
    have hfind' := ha'.node?_eq hn'
    rw [hid] at hfind'
    refine Node.kept_of_hollow hsame (fun k => ?_) fun k => ?_
    · have hk := congrFun ht ⟨node.id, k⟩
      simpa only [targets, output?, hfind, hfind', Option.bind_some] using hk
    · have hk := congrFun hb ⟨node.id, k⟩
      simpa only [bound, link?, hfind, hfind', Option.bind_some] using hk
  simp only [kept, hgraphs, hkept, htypes, hnextGraph, hnextNode]

/-- Joined again, the nodes without connections are the script again. -/
theorem rejoin {names : Names} {keys : Keys} (hj : script.Joinable names keys)
    {graphs : List GraphDef} (ht : script.Tells names graphs script.nodes) {loaded : Loaded β}
    (hs : script.Rejoined keys [] [] loaded) : ∃ loaded',
      graphs.foldlM Loaded.join loaded = .ok loaded' ∧ loaded'.keys = keys
        ∧ loaded'.script.hollow = script.hollow ∧ loaded'.script.targets = script.targets
        ∧ loaded'.script.bound = script.bound := by
  have hbindings := bindingDefs_eq hj.arena names
  rw [hj.grounded.resolvedBindings_eq] at hbindings
  obtain ⟨loaded', hl, h⟩ := hs.foldlM_join hj graphs rfl rfl
    (ht.links.trans (linkDefs_eq hj.arena hj.paired names))
    (ht.bound.trans hbindings)
  refine ⟨loaded', hl, h.keys, h.hollow, ?_, ?_⟩
  · funext o
    rw [h.targets, hj.arena.filter_connectionList]
  · funext ref
    rw [h.bound, hj.arena.filter_bindingList]

end Script

end FlowScript
