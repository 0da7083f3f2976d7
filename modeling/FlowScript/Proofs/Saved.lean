import FlowScript.Proofs.Building
import FlowScript.Proofs.Descent
import FlowScript.Proofs.Naming
import FlowScript.Proofs.Preorder

/-!
# What a saved script leads to

In the definition of a script the name of a node leads to the node as it is created again, with the
number that it then gets (`Saved.find`). Names of inputs and value links lead to the same places as
before, and so do names of outputs, unless a switch says by then that it has fewer of them
(`output?_isSome`).
-/

namespace FlowScript

variable {β : Type}

/-! ## Positions -/

/-- In a list whose names are those of another one as far as both go, a name is found where the
other one has it, or not at all. -/
theorem position?_of_prefix {α : Type} {name : α → String} {l l' : List α} {k : Nat} {a : α}
    (hn : (l.map name).Nodup) (hn' : (l'.map name).Nodup)
    (hp : l.map name <+: l'.map name ∨ l'.map name <+: l.map name) (ha : l[k]? = some a) :
    position? (name · == name a) l' = if k < l'.length then some k else none := by
  have hname : (l.map name)[k]? = some (name a) := by
    rw [List.getElem?_map, ha, Option.map_some]
  have hlt : k < (l.map name).length := (List.getElem?_eq_some_iff.1 hname).1
  split
  · rename_i hk
    have hsame : (l'.map name)[k]? = some (name a) := by
      rcases hp with ⟨more, hmore⟩ | ⟨more, hmore⟩
      · rw [← hmore, List.getElem?_append_left hlt, hname]
      · rw [← hmore, List.getElem?_append_left (by rwa [List.length_map])] at hname
        exact hname
    rw [List.getElem?_map] at hsame
    obtain ⟨a', ha', heq⟩ := Option.map_eq_some_iff.1 hsame
    rw [← heq]
    exact position?_of_getElem? hn' ha'
  · rename_i hk
    rw [List.length_map] at hlt
    rw [position?_eq_none]
    intro a' ha'
    rcases hp with ⟨more, hmore⟩ | ⟨more, hmore⟩
    · have hlength := congrArg List.length hmore
      rw [List.length_append, List.length_map, List.length_map] at hlength
      omega
    · -- The name comes after those of the shorter list.
      rw [← hmore, List.getElem?_append_right (by rw [List.length_map]; omega)] at hname
      rw [← hmore, List.nodup_append] at hn
      rw [beq_eq_false_iff_ne]
      exact hn.2.2 _ (List.mem_map_of_mem ha') _ (List.mem_of_getElem? hname)

theorem getElem?_filterMap {α γ : Type} {f : α → Option γ} : ∀ {l : List α},
    (∀ a ∈ l, (f a).isSome = true) → ∀ k : Nat, (l.filterMap f)[k]? = (l[k]?).bind f
  | [], _, _ => rfl
  | a :: l, h, k => by
    rw [List.forall_mem_cons] at h
    obtain ⟨c, hc⟩ := Option.isSome_iff_exists.1 h.1
    rw [List.filterMap_cons_some hc]
    rcases k with _ | k
    · exact hc.symm
    · exact getElem?_filterMap h.2 k

/-! ## Nodes -/

namespace Script

theorem nodup_keys {script : Script β} (ha : script.Arena) {keys : Keys}
    (hk : (Keyed.keys keys).Nodup) : ((script.definition keys).entries.map (·.key)).Nodup := by
  rw [entries_definition ha, List.map_map]
  have hnames : script.byGraph.map ((·.key) ∘ nodeDef (.ofScript script keys)) =
      (script.byGraph.map (·.id)).map (Names.ofScript script keys).get := by
    rw [List.map_map]
    rfl
  rw [hnames]
  refine List.Nodup.map_on (fun a hida b hidb heq => ?_) ha.nodup_byGraph
  have hperm := ha.perm_byGraph.map (·.id)
  exact Names.get_inj script hk (hperm.mem_iff.1 hida) (hperm.mem_iff.1 hidb) heq

/-- The name of a node leads to the node as it is created again, if every node is. -/
theorem node?_definition {script : Script β} (ha : script.Arena) {keys : Keys}
    (hk : (Keyed.keys keys).Nodup) {registry : Registry β}
    (accepted : ∀ node ∈ script.nodes,
      registry.Accepts (nodeDef (.ofScript script keys) node)) {node : Node β}
    (hn : node ∈ script.nodes) {builder : NodeBuilder β}
    (hc : registry.create node.type (nodeDef (.ofScript script keys) node).properties =
      .ok builder) :
    (script.definition keys).node? registry ((Names.ofScript script keys).get node.id) =
      some (builder.build (script.number node.id) (script.place node.graph)) := by
  obtain ⟨k, hk'⟩ := List.mem_iff_getElem?.1 (ha.perm_byGraph.mem_iff.2 hn)
  have hentry : (script.definition keys).entries[k]? =
      some (nodeDef (.ofScript script keys) node) := by
    rw [entries_definition ha, List.getElem?_map, hk', Option.map_some]
  have hposition := position?_of_getElem? (nodup_keys ha hk) hentry
  have hcreated : ∀ node ∈ script.byGraph,
      ((registry.create node.type (nodeDef (.ofScript script keys) node).properties).toOption.map
        (·.build (script.number node.id) (script.place node.graph))).isSome = true := by
    intro node hn
    have haccepted := accepted node (ha.perm_byGraph.mem_iff.1 hn)
    obtain ⟨builder, hb⟩ := Registry.accepts_iff.1 haccepted
    have hb : registry.create node.type (nodeDef (.ofScript script keys) node).properties =
        .ok builder := hb
    rw [hb]
    rfl
  rw [GraphDef.node?]
  refine Option.bind_eq_some_iff.2 ⟨k, hposition, ?_⟩
  rw [created_definition ha, getElem?_filterMap hcreated, hk', Option.bind_some, hc]
  rfl

end Script

/-! ## Standard nodes -/

/-- A script of standard nodes, and keys for it. -/
structure Script.Saved (script : Script Standard) (keys : Keys) : Prop where
  arena : script.Arena
  paired : script.Paired
  grounded : script.Grounded
  native : ∀ id node, script.node? id = some node → node.Native
  keys : (Keyed.keys keys).Nodup

namespace Script.Saved

variable {script : Script Standard} {keys : Keys}

theorem ofReachable (h : script.Reachable Standard.Instantiated) (hk : (Keyed.keys keys).Nodup) :
    script.Saved keys where
  arena := h.arena
  paired := by
    refine (h.mono ?_).paired
    rintro builder ⟨type, properties, hc⟩
    exact Standard.places_made type properties builder hc
  grounded := by
    refine (h.mono ?_).grounded
    rintro builder ⟨type, properties, hc⟩
    exact Standard.places_declared type properties builder hc
  native := h.native
  keys := hk

variable (h : script.Saved keys)

include h

theorem accepted : ∀ node ∈ script.nodes,
    Standard.registry.Accepts (nodeDef (.ofScript script keys) node) := by
  intro node hn
  obtain ⟨builder, -, hc, -⟩ :=
    (h.native node.id node (h.arena.node?_eq hn)).created (.ofScript script keys)
  exact Registry.accepts_iff.2 ⟨builder, hc⟩

/-- The name of a node leads to the node, renumbered and without connections. -/
theorem find {id : NodeId} {node : Node Standard} (hn : script.node? id = some node) :
    ∃ again, (script.definition keys).node? Standard.registry
        ((Names.ofScript script keys).get id) = some again
      ∧ again.id = script.number id ∧ again.valueType = node.valueType
      ∧ again.inputs = node.inputs.map .clear ∧ again.outputs = node.relaid.map .shape
      ∧ again.links = node.links.map .clear := by
  obtain rfl := id_of_node? hn
  obtain ⟨builder, behavior, hc, hbuild⟩ := (h.native _ node hn).created (.ofScript script keys)
  refine ⟨_, node?_definition h.arena h.keys h.accepted (List.mem_of_find?_eq_some hn) hc, rfl, ?_⟩
  simp only [NodeBuilder.build, Node.reset, Node.mk.injEq] at hbuild
  obtain ⟨-, -, -, -, hvalueType, hinputs, houtputs, hlinks, -, -⟩ := hbuild
  exact ⟨hvalueType, hinputs, houtputs, hlinks⟩

/-! ## Links -/

theorem output?_isSome {o : OutputRef} {node : Node Standard} {link : OutputLink}
    (hn : script.node? o.node = some node) (hl : node.outputs[o.index]? = some link) :
    ((script.definition keys).output? Standard.registry
      ((Names.ofScript script keys).get o.node) link.name).isSome = true ↔
        o.index < node.relaid.length := by
  obtain ⟨again, hfind, -, -, -, houtputs, -⟩ := h.find hn
  have hnative := h.native _ _ hn
  have hindex : again.outputIndex? link.name =
      if o.index < node.relaid.length then some o.index else none := by
    rw [Node.outputIndex?, houtputs, ← position?_of_prefix hnative.distinct.outputs
      hnative.relaid_names.1 hnative.relaid_names.2 hl]
    refine position?_congr ?_
    rw [List.map_map]
    rfl
  rw [GraphDef.output?, hfind, Option.bind_some, hindex, Option.isSome_map]
  split
  · rename_i hlt
    exact iff_of_true rfl hlt
  · rename_i hge
    exact iff_of_false Bool.false_ne_true hge

theorem input?_eq {i : InputRef} {node : Node Standard} {link : InputLink}
    (hn : script.node? i.node = some node) (hl : node.inputs[i.index]? = some link) :
    (script.definition keys).input? Standard.registry
      ((Names.ofScript script keys).get i.node) link.name =
        some ⟨script.number i.node, i.index⟩ := by
  obtain ⟨again, hfind, hid, -, hinputs, -⟩ := h.find hn
  have hindex : again.inputIndex? link.name = some i.index := by
    rw [Node.inputIndex?, hinputs,
      ← position?_of_getElem? (h.native _ _ hn).distinct.inputs hl]
    refine position?_congr ?_
    rw [List.map_map]
    rfl
  rw [GraphDef.input?, hfind, Option.bind_some, hindex, hid, Option.map_some]

theorem link?_eq {ref : ValueLinkRef} {node : Node Standard} {link : ValueLink}
    (hn : script.node? ref.node = some node) (hl : node.links[ref.index]? = some link) :
    (script.definition keys).link? Standard.registry
      ((Names.ofScript script keys).get ref.node) link.name =
        some (⟨script.number ref.node, ref.index⟩, link.clear) := by
  obtain ⟨again, hfind, hid, -, -, -, hlinks⟩ := h.find hn
  have hindex : again.linkIndex? link.name = some ref.index := by
    rw [Node.linkIndex?, hlinks,
      ← position?_of_getElem? (h.native _ _ hn).distinct.links hl]
    refine position?_congr ?_
    rw [List.map_map]
    rfl
  rw [GraphDef.link?, hfind, Option.bind_some, hindex, Option.bind_some, hlinks,
    List.getElem?_map, hl, hid, Option.map_some, Option.map_some]

end Script.Saved

end FlowScript
