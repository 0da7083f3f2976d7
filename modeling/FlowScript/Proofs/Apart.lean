import FlowScript.Proofs.Heeding
import FlowScript.Proofs.Played
import FlowScript.Proofs.Sides

/-!
# Remote calls that stay on their side

A remote call finds events by plain properties, and no standard node writes these (`Retains`). So a
script in which every remote call finds events of its own side only (`Apart`) remains one during
play, and a call on one side does what it would do with the other side left out
(`Turn.Calls.run_only`).
-/

namespace FlowScript

variable {α β : Type}

/-- The properties that decide which events a remote call finds. -/
def lookupNames : List String := [eventNameProperty, "LocalOnly"]

theorem Standard.unlinked_of_mem_catalog : ∀ e ∈ catalog, ∀ properties,
    ∀ name ∈ lookupNames, name ∉ (e.2 properties).links.map (·.name) := by
  have bare (builder : NodeBuilder Standard) (h : builder.links = []) :
      ∀ name ∈ lookupNames, name ∉ builder.links.map (·.name) := by
    rw [h]
    exact fun _ _ => List.not_mem_nil
  have loop : ∀ name ∈ lookupNames, name ∉ ["Start", "End", "CurrentIndex"] := by decide
  have single : ∀ name ∈ lookupNames,
      ∀ only ∈ ["Value", "CurrentIndex", "Delay", "Condition", "Param"], name ∉ [only] := by decide
  simp only [catalog, List.forall_mem_cons]
  exact ⟨fun _ name hn => single name hn "Value" (by decide), fun _ => loop,
    fun _ name hn => single name hn "CurrentIndex" (by decide),
    fun _ name hn => single name hn "Delay" (by decide),
    fun _ name hn => single name hn "Condition" (by decide), fun _ => bare _ rfl,
    fun _ => bare _ rfl, fun _ => bare _ rfl, fun _ => bare _ rfl, fun _ => bare _ rfl,
    fun _ name hn => single name hn "Param" (by decide), fun _ => bare _ rfl, fun _ => bare _ rfl,
    fun _ => bare _ rfl, fun _ => bare _ rfl, fun _ => bare _ rfl, List.forall_mem_nil _⟩

/-- No behavior writes where events are looked up. -/
theorem Standard.not_mem_writes (behavior : Standard) :
    ∀ name ∈ lookupNames, name ∉ cellName :: behavior.writes := by
  have written : ∀ names ∈ [[], ["Value"], ["CurrentIndex"]],
      ∀ name ∈ lookupNames, name ∉ cellName :: names := by decide
  refine written behavior.writes ?_
  cases behavior <;> simp [writes]

namespace Script

/-- No node has a value link under a name by which events are looked up. -/
def Unlinked (script : Script β) : Prop :=
  ∀ id node, script.node? id = some node → ∀ name ∈ lookupNames, node.linkIndex? name = none

theorem unlinked_of_genuine {script : Script Standard}
    (genuine : ∀ id node, script.node? id = some node → node.Genuine) : script.Unlinked := by
  intro id node hn name hname
  obtain ⟨entry, he, properties, hshape, -⟩ := genuine id node hn
  have hnames := ValueLink.names_of_shape (congrArg NodeBuilder.links hshape :)
  refine position?_eq_none.2 fun link hl => ?_
  have hne : link.name ≠ name := by
    rintro rfl
    refine Standard.unlinked_of_mem_catalog entry he properties _ hname ?_
    rw [← hnames]
    exact List.mem_map_of_mem hl
  exact beq_eq_false_iff_ne.2 hne

theorem Unlinked.of_skeleton {script script' : Script β} (h : script.Unlinked)
    (hs : script'.skeleton = script.skeleton) : script'.Unlinked := by
  intro id node' hn' name hname
  obtain ⟨node, hn, hsame⟩ := node?_of_skeleton hs hn'
  have hlinks := congrArg (List.map (·.name)) (congrArg Node.links hsame :)
  simp only [Node.skeleton, List.map_map] at hlinks
  exact (position?_of_map_eq hlinks name).trans (h id node hn name hname)

theorem Unlinked.property? {script : Script β} (h : script.Unlinked) (id : NodeId) {name : String}
    (hname : name ∈ lookupNames) : script.property? id name = script.plain? id name := by
  unfold Script.property? plain?
  rcases hn : script.node? id with _ | node
  · rfl
  · simp only [h id node hn name hname, Option.bind_some]

/-! ## What is kept of the events -/

/-- Which events there are, and under which names, is as it was. -/
structure Retains (start script : Script β) : Prop where
  skeleton : script.skeleton = start.skeleton
  plain (id : NodeId) : ∀ name ∈ lookupNames, script.plain? id name = start.plain? id name

namespace Retains

variable {start script script' : Script β}

theorem refl (script : Script β) : script.Retains script := ⟨rfl, fun _ _ _ => rfl⟩

theorem trans (h : start.Retains script) (h' : script.Retains script') : start.Retains script' where
  skeleton := h'.skeleton.trans h.skeleton
  plain id name hn := (h'.plain id name hn).trans (h.plain id name hn)

theorem of_written {touched : NodeId → Prop} {names : List String}
    (hw : Written touched names start script) (hn : ∀ name ∈ lookupNames, name ∉ names) :
    start.Retains script :=
  ⟨hw.skeleton, fun id name hname => hw.plain id name (hn name hname)⟩

theorem book (script : Script β) (id : NodeId) {f : Node β → Node β}
    (hf : ∀ node : Node β, node.Booked (f node)) : script.Retains (script.modifyNode id f) := by
  refine ⟨script.modifyNode_skeleton id fun node => (hf node).skeleton, fun id' name _ => ?_⟩
  rw [plain?, node?_modifyNode script f fun node => (hf node).id, plain?]
  split
  · rw [Option.bind_map]
    refine congrArg _ (funext fun node => ?_)
    obtain ⟨behavior, outputs, heq, -⟩ := hf node
    rw [Function.comp, heq]
  · rfl

theorem property? (h : start.Retains script) (hu : start.Unlinked) (id : NodeId) {name : String}
    (hname : name ∈ lookupNames) : script.property? id name = start.property? id name := by
  rw [(hu.of_skeleton h.skeleton).property? id hname, hu.property? id hname, h.plain id name hname]

end Retains

theorem find_congr {script script' : Script β} (hs : script'.skeleton = script.skeleton)
    {name : String} (hp : ∀ id, script'.property? id name = script.property? id name)
    (type : TypeId) (value : Property) (inside : Option GraphId) :
    script'.find type name value inside = script.find type name value inside := by
  have hnodes : ∀ s : Script β,
      (s.nodesOfType type).map Node.skeleton = s.skeleton.nodesOfType type := by
    intro s
    unfold nodesOfType
    rw [List.map_filterMap]
    exact congrArg (List.filterMap · _) (funext fun id => (s.node?_skeleton id).symm)
  have hfind : ∀ s : Script β, s.find type name value inside =
      ((((s.nodesOfType type).map Node.skeleton).filter fun node =>
        (inside.map s.subtree).all (node.graph ∈ ·)).filter fun node =>
          (s.property? node.id name).any (·.same value)).map (·.id) := by
    intro s
    simp only [find, List.filter_map, List.map_map]
    rfl
  have hsubtree : script'.subtree = script.subtree :=
    funext (subtree_of_graphs (congrArg Script.graphs hs :))
  rw [hfind, hfind, hnodes, hnodes, hs, hsubtree]
  simp only [hp]

theorem Retains.eventsNamed {start script : Script β} (h : start.Retains script)
    (hu : start.Unlinked) (name : String) (scope : Scope) (origin : GraphId) :
    script.eventsNamed name scope origin = start.eventsNamed name scope origin :=
  find_congr h.skeleton (fun id => h.property? hu id List.mem_cons_self) _ _ _

/-! ## Apart -/

/-- Nothing connects the sides: no control link, no value binding and no remote call that finds an
event of the other side. -/
structure Apart (side : NodeId → Bool) (script : Script Standard) : Prop
    extends Parted side script where
  events (id : NodeId) (node : Node Standard) (name : String) (isLocal : Bool) :
    script.node? id = some node → node.behavior = some .callRemoteEvent →
    (script.property? id eventNameProperty).bind (·.asString?) = some name →
    (script.property? id "LocalOnly").bind (·.asBool?) = some isLocal →
    ∀ event ∈ script.eventsNamed name (if isLocal then .nested else .everywhere) node.graph,
      side event = side id

end Script

/-! ## Calls -/

namespace Turn

/-- The turn of a call that a node of the script makes. -/
structure Calls (start : Script Standard) (behavior : Standard) (turn : Turn Standard) : Prop where
  retains : start.Retains turn.script
  caller : ∃ node, start.node? turn.activation.node = some node ∧ node.graph = turn.graph
    ∧ node.behavior.map Standard.blank = some behavior.blank

variable {start : Script Standard} {behavior : Standard} {turn : Turn Standard} {r : Request}

theorem Calls.answer (h : turn.Calls start behavior) (hr : behavior.MayAsk r) :
    (turn.answer r).2.Calls start behavior where
  retains := h.retains.trans (.of_written (turn.answer_written r) fun name hname hn =>
    behavior.not_mem_writes name hname
      (Request.named_of_within (Standard.within_of_mayAsk hr) name hn))
  caller := by
    rw [turn.answer_activation, turn.answer_graph]
    exact h.caller

variable {side : NodeId → Bool}

/-- The events that a request finds are of the side of the node that is called. -/
theorem Calls.side_foundBy (h : turn.Calls start behavior) (apart : start.Apart side)
    (hu : start.Unlinked) (hr : behavior.MayAsk r) (ho : turn.Owns r) :
    ∀ id ∈ turn.foundBy r, side id = side turn.activation.node := by
  cases r with
  | signal event scope =>
    obtain ⟨isLocal, hevent, hlocal, rfl⟩ := ho
    obtain ⟨node, hn, hgraph, hblank⟩ := h.caller
    obtain rfl : behavior = .callRemoteEvent := hr
    obtain ⟨caller, hb, hcaller⟩ := Option.map_eq_some_iff.1 hblank
    obtain rfl : caller = .callRemoteEvent := Standard.eq_of_blank hcaller rfl
    rw [h.retains.property? hu _ (by decide)] at hevent hlocal
    rw [foundBy, Option.getD_some, h.retains.eventsNamed hu, ← hgraph]
    exact apart.events _ node event isLocal hn hb hevent hlocal
  | _ => exact List.forall_mem_nil _

/-- What a request of the other side sends does not count. -/
theorem only_bridge_answer (ho : turn.Owns r) (hs : side turn.activation.node = false) :
    (turn.answer r).2.bridge.only side = turn.bridge.only side := by
  cases r with
  | send message =>
    have hmessage : message.node = turn.activation.node := ho
    exact Bridge.only_send_of_not (by rw [hmessage, hs]) turn.bridge
  | pulse output =>
    simp only [Turn.answer, Turn.pulse]
    split <;> rfl
  | pushTargets output =>
    simp only [Turn.answer, Turn.pushTargets]
    split <;> rfl
  | _ => rfl

section runs

variable {wants : α → Turn Standard → Prop} {p : Program α}

theorem only_bridge_run (hp : p.Heeds (Permits behavior) wants turn)
    (hs : side turn.activation.node = false) :
    (p.run turn).2.bridge.only side = turn.bridge.only side := by
  refine (hp.keeps (fun t => t.activation = turn.activation
    ∧ t.bridge.only side = turn.bridge.only side) (fun t r hr ⟨hactivation, hbridge⟩ => ?_)
    ⟨rfl, rfl⟩).2
  exact ⟨(t.answer_activation r).trans hactivation,
    (only_bridge_answer hr.2 (by rw [hactivation, hs])).trans hbridge⟩

variable (apart : start.Apart side) (hu : start.Unlinked)

include apart hu

theorem Calls.side_found (hc : turn.Calls start behavior)
    (hp : p.Heeds (Permits behavior) wants turn) :
    ∀ id ∈ p.found turn, side id = side turn.activation.node := by
  induction p generalizing turn with
  | done a => exact List.forall_mem_nil _
  | ask r next ih =>
    obtain ⟨⟨hr, ho⟩, hp⟩ := hp
    intro id hid
    rcases List.mem_append.1 hid with hid | hid
    · exact hc.side_foundBy apart hu hr ho id hid
    · rw [← turn.answer_activation r]
      exact ih _ (hc.answer hr) hp id hid

/-- A call does on its side what it would do with the other side left out. -/
theorem Calls.run_only (hc : turn.Calls start behavior)
    (hp : p.Heeds (Permits behavior) wants turn) (hs : side turn.activation.node = true) :
    p.run (turn.only side) = (p.run turn).map id (only side) := by
  induction p generalizing turn with
  | done a => rfl
  | ask r next ih =>
    obtain ⟨⟨hr, ho⟩, hp⟩ := hp
    have hanswer : (turn.only side).answer r = (turn.answer r).map id (only side) := by
      refine answer_only (apart.toParted.of_skeleton hc.retains.skeleton) hs hr ?_ fun id hid => ?_
      · rintro message rfl
        exact (congrArg side ho).trans hs
      · exact (hc.side_foundBy apart hu hr ho id hid).trans hs
    rw [Program.run, Program.run, hanswer]
    exact ih _ (hc.answer hr) hp ((congrArg (side ·.node) (turn.answer_activation r)).trans hs)

end runs

end Turn

end FlowScript
