import FlowScript.Agent
import FlowScript.Proofs.Reachable
import FlowScript.Proofs.Wiring
import Mathlib.Data.List.Nodup

/-!
# Connections are listed at both ends

An output lists an input exactly if the input lists the output, and neither lists anything twice.
Every edit keeps this (`Paired.edit`), a tick does not touch it, and so it holds of every script
that a host can come by. What the requests on connections answer can be read off it.
-/

namespace FlowScript.Script

variable {β : Type}

/-- The two ends are connected. -/
def Connected (script : Script β) (o : OutputRef) (i : InputRef) : Prop := i ∈ script.targets o

theorem Connected.listed {script : Script β} {o : OutputRef} {i : InputRef}
    (h : script.Connected o i) :
    ∃ node ∈ script.nodes, node.id = o.node ∧ ∃ link ∈ node.outputs, i ∈ link.connected := by
  obtain ⟨link, hl⟩ := Option.isSome_iff_exists.1 (isSome_of_mem_targets h)
  rw [Connected, targets_of_output? hl] at h
  obtain ⟨node, hn, hlink⟩ := Option.bind_eq_some_iff.1 hl
  exact ⟨node, List.mem_of_find?_eq_some hn, id_of_node? hn, link, List.mem_of_getElem? hlink, h⟩

/-- Every connection is listed once at either end. -/
structure Paired (script : Script β) : Prop where
  both (o : OutputRef) (i : InputRef) : i ∈ script.targets o ↔ o ∈ script.sources i
  targets_nodup (o : OutputRef) : (script.targets o).Nodup
  sources_nodup (i : InputRef) : (script.sources i).Nodup

theorem sublist_ite {α : Type} {p : Prop} [Decidable p] {short l : List α}
    (h : short.Sublist l) : (if p then short else l).Sublist l := by
  split
  · exact h
  · exact .refl l

theorem targets_of_unconnected {script : Script β}
    (h : ∀ node ∈ script.nodes, ∀ link ∈ node.outputs, link.connected = []) (o : OutputRef) :
    script.targets o = [] := by
  rcases ho : script.output? o with _ | link
  · rw [targets, ho, Option.elim_none]
  · obtain ⟨node, hn, hl⟩ := Option.bind_eq_some_iff.1 ho
    rw [targets_of_output? ho]
    exact h node (List.mem_of_find?_eq_some hn) link (List.mem_of_getElem? hl)

theorem sources_of_unconnected {script : Script β}
    (h : ∀ node ∈ script.nodes, ∀ link ∈ node.inputs, link.connected = []) (i : InputRef) :
    script.sources i = [] := by
  rcases hi : script.input? i with _ | link
  · rw [sources, hi, Option.elim_none]
  · obtain ⟨node, hn, hl⟩ := Option.bind_eq_some_iff.1 hi
    rw [sources_of_input? hi]
    exact h node (List.mem_of_find?_eq_some hn) link (List.mem_of_getElem? hl)

namespace Paired

variable {script script' : Script β}

theorem withRootName (name : String) : (withRootName name : Script β).Paired where
  both _ _ := iff_of_false List.not_mem_nil List.not_mem_nil
  targets_nodup _ := List.nodup_nil
  sources_nodup _ := List.nodup_nil

theorem of_wiring (h : script.Paired)
    (hw : script'.targets = script.targets ∧ script'.sources = script.sources) :
    script'.Paired := by
  refine ⟨?_, ?_, ?_⟩
  · rw [hw.1, hw.2]
    exact h.both
  · rw [hw.1]
    exact h.targets_nodup
  · rw [hw.2]
    exact h.sources_nodup

theorem of_no_wiring (ht : ∀ o, script.targets o = []) (hs : ∀ i, script.sources i = []) :
    script.Paired := by
  refine ⟨fun o i => ?_, fun o => ?_, fun i => ?_⟩
  · rw [ht, hs]
    exact iff_of_false List.not_mem_nil List.not_mem_nil
  · rw [ht]
    exact List.nodup_nil
  · rw [hs]
    exact List.nodup_nil

theorem of_skeleton (h : script.Paired) (hs : script'.skeleton = script.skeleton) :
    script'.Paired :=
  h.of_wiring ⟨targets_of_skeleton hs, sources_of_skeleton hs⟩

/-- Taking elements off the lists keeps them paired, as long as a connection that one end keeps is
kept by the other. -/
theorem of_sublist (h : script.Paired)
    (hb : ∀ o i, i ∈ script'.targets o ↔ o ∈ script'.sources i)
    (ht : ∀ o, (script'.targets o).Sublist (script.targets o))
    (hs : ∀ i, (script'.sources i).Sublist (script.sources i)) : script'.Paired where
  both := hb
  targets_nodup o := (h.targets_nodup o).sublist (ht o)
  sources_nodup i := (h.sources_nodup i).sublist (hs i)

theorem connect (h : script.Paired) (o : OutputRef) (i : InputRef) :
    (script.connect o i).2.Paired := by
  by_cases hf : script.Free o i
  · obtain ⟨-, ht, hs⟩ := wiring_connect hf
    obtain ⟨-, -, hit, hos⟩ := hf
    refine ⟨fun o' i' => ?_, fun o' => ?_, fun i' => ?_⟩
    · -- Either end may be shared with another connection, so the two are told apart on their own.
      rw [ht, hs]
      have hboth := h.both o' i'
      by_cases ho : o' = o <;> by_cases hi : i' = i <;> simp_all
    · rw [ht]
      split
      · rename_i ho
        rw [ho, ← List.concat_eq_append]
        exact (h.targets_nodup o).concat hit
      · exact h.targets_nodup o'
    · rw [hs]
      split
      · rename_i hi
        rw [hi, ← List.concat_eq_append]
        exact (h.sources_nodup i).concat hos
      · exact h.sources_nodup i'
  · rw [connect_of_not_free hf]
    exact h

theorem disconnect (h : script.Paired) (o : OutputRef) (i : InputRef) :
    (script.disconnect o i).2.Paired := by
  obtain ⟨-, ht, hs⟩ := script.wiring_disconnect o i
  refine h.of_sublist (fun o' i' => ?_) (fun o' => ?_) (fun i' => ?_)
  · rw [ht, hs]
    have hboth := h.both o' i'
    by_cases ho : o' = o <;> by_cases hi : i' = i <;> simp_all
  · rw [ht]
    exact sublist_ite List.filter_sublist
  · rw [hs]
    exact sublist_ite List.filter_sublist

theorem disconnectOutput (h : script.Paired) (o : OutputRef) :
    (script.disconnectOutput o).2.Paired := by
  obtain ⟨-, ht, hs⟩ := script.wiring_disconnectOutput o
  refine h.of_sublist (fun o' i => ?_) (fun o' => ?_) (fun i => ?_)
  · rw [ht, hs]
    -- An input that is not listed at `o` is not visited, so its list is left as it is.
    have hboth := h.both o' i
    by_cases ho : o' = o <;> by_cases hi : i ∈ script.targets o <;> simp_all
  · rw [ht]
    exact sublist_ite (List.nil_sublist _)
  · rw [hs]
    exact sublist_ite List.filter_sublist

theorem disconnectInput (h : script.Paired) (i : InputRef) :
    (script.disconnectInput i).2.Paired := by
  obtain ⟨-, ht, hs⟩ := script.wiring_disconnectInput i
  refine h.of_sublist (fun o i' => ?_) (fun o => ?_) (fun i' => ?_)
  · rw [ht, hs]
    have hboth := h.both o i'
    by_cases hi : i' = i <;> by_cases ho : o ∈ script.sources i <;> simp_all
  · rw [ht]
    exact sublist_ite List.filter_sublist
  · rw [hs]
    exact sublist_ite (List.nil_sublist _)

/-- The removal of a node takes off the connections that have an end at it. -/
theorem targets_removeNode (h : script.Paired) {id : NodeId} {removed : Node β × Script β}
    (hr : script.removeNode id = .ok removed) (o : OutputRef) :
    removed.2.targets o =
      if o.node = id then [] else (script.targets o).filter (·.node ≠ id) := by
  rw [(wiring_removeNode hr).1]
  split
  · rfl
  · refine List.filter_congr fun i hi => ?_
    simp [(h.both o i).1 hi]

theorem sources_removeNode (h : script.Paired) {id : NodeId} {removed : Node β × Script β}
    (hr : script.removeNode id = .ok removed) (i : InputRef) :
    removed.2.sources i =
      if i.node = id then [] else (script.sources i).filter (·.node ≠ id) := by
  rw [(wiring_removeNode hr).2]
  split
  · rfl
  · refine List.filter_congr fun o ho => ?_
    simp [(h.both o i).2 ho]

theorem removeNode (h : script.Paired) {id : NodeId} {removed : Node β × Script β}
    (hr : script.removeNode id = .ok removed) : removed.2.Paired := by
  refine h.of_sublist (fun o i => ?_) (fun o => ?_) (fun i => ?_)
  · rw [h.targets_removeNode hr, h.sources_removeNode hr]
    have hboth := h.both o i
    by_cases ho : o.node = id <;> by_cases hi : i.node = id <;> simp_all
  · rw [h.targets_removeNode hr]
    split
    · exact List.nil_sublist _
    · exact List.filter_sublist
  · rw [h.sources_removeNode hr]
    split
    · exact List.nil_sublist _
    · exact List.filter_sublist

theorem connectValue (h : script.Paired) {ref : ValueLinkRef} {cell : NodeId}
    (hc : script.connectValue ref cell = .ok script') : script'.Paired := by
  unfold Script.connectValue at hc
  repeat' split at hc
  all_goals cases hc
  exact h.of_wiring (script.wiring_modifyLink ref _)

theorem disconnectValue (h : script.Paired) (ref : ValueLinkRef) (cell : Option NodeId) :
    (script.disconnectValue ref cell).2.Paired := by
  unfold Script.disconnectValue
  split
  · exact h
  split
  · exact h.of_wiring (script.wiring_modifyLink ref _)
  · exact h.of_wiring (script.wiring_modifyLink ref _)

theorem edit (h : script.Paired) (change : Edit β) (places : change.Places NodeBuilder.Made) :
    (script.edit change).Paired := by
  cases change with
  | addGraph parent name =>
    refine unlessRefused_keeps h fun next hn => ?_
    unfold addGraph at hn
    split at hn
    · obtain rfl := Except.ok.inj hn
      exact h.of_wiring ⟨rfl, rfl⟩
    · cases hn
  | setGraphName graph name => exact h.of_wiring ⟨rfl, rfl⟩
  | removeGraph graph =>
    exact unlessRefused_keeps h fun next hn =>
      removeGraph_keeps (fun hr hp => hp.removeNode hr) (fun _ _ hp => hp.of_wiring ⟨rfl, rfl⟩) hn h
  | addNode graph builder =>
    refine unlessRefused_keeps h fun next hn => ?_
    obtain ⟨added, ha, rfl⟩ := map_eq_ok.1 hn
    obtain ⟨hin, hout⟩ := NodeBuilder.Made.unconnected places
    exact h.of_wiring (wiring_addNode hin hout ha)
  | removeNode node =>
    refine unlessRefused_keeps h fun next hn => ?_
    obtain ⟨removed, hr, rfl⟩ := map_eq_ok.1 hn
    exact h.removeNode hr
  | connect output input => exact h.connect output input
  | connectByName source output target input =>
    refine unlessRefused_keeps h fun next hn => ?_
    obtain ⟨made, hm, rfl⟩ := map_eq_ok.1 hn
    obtain ⟨o, -, hm⟩ := bind_eq_ok.1 hm
    obtain ⟨i, -, hm⟩ := bind_eq_ok.1 hm
    obtain rfl := Except.ok.inj hm
    exact h.connect ⟨source, o⟩ ⟨target, i⟩
  | disconnect output input => exact h.disconnect output input
  | disconnectOutput output => exact h.disconnectOutput output
  | disconnectInput input => exact h.disconnectInput input
  | connectValue link cell => exact unlessRefused_keeps h fun next hn => h.connectValue hn
  | connectValueByName node name cell =>
    refine unlessRefused_keeps h fun next hn => ?_
    obtain ⟨index, -, hn⟩ := bind_eq_ok.1 hn
    exact h.connectValue hn
  | disconnectValue link cell => exact h.disconnectValue link cell
  | setProperty node name value => exact h.of_skeleton (script.setProperty_skeleton node name value)
  | setLinkValue link slot value =>
    exact h.of_skeleton (script.setLinkValue_skeleton link slot value)
  | setLocalProperty node name value =>
    exact h.of_skeleton
      (script.modifyNode_skeleton node fun n => n.setLocalProperty_skeleton name value)
  | setValue node value =>
    exact h.of_skeleton (script.modifyNode_skeleton node fun n => n.setValue_skeleton value)
  | activateOutput node index =>
    exact h.of_skeleton (script.modifyNode_skeleton node fun n => n.activateOutput_skeleton index)

end Paired

/-- From one script to another exactly the given number of connections was taken off. -/
def Lost (before after : Script β) (count : Nat) : Prop :=
  ∃ pairs : List (OutputRef × InputRef), pairs.Nodup ∧ pairs.length = count
    ∧ ∀ o i, (o, i) ∈ pairs ↔ before.Connected o i ∧ ¬ after.Connected o i

namespace Paired

variable {script : Script β}

theorem resolves (h : script.Paired) {o : OutputRef} {i : InputRef} (hc : script.Connected o i) :
    (script.output? o).isSome ∧ (script.input? i).isSome :=
  ⟨isSome_of_mem_targets hc, isSome_of_mem_sources ((h.both o i).1 hc)⟩

theorem connect_iff (h : script.Paired) (o : OutputRef) (i : InputRef) :
    (script.connect o i).1 = true ↔
      (script.output? o).isSome ∧ (script.input? i).isSome ∧ ¬ script.Connected o i := by
  have hfree : script.Free o i ↔
      (script.output? o).isSome ∧ (script.input? i).isSome ∧ ¬ script.Connected o i := by
    unfold Free Connected
    rw [← h.both, and_self]
  rw [← hfree]
  refine ⟨fun hc => ?_, fun hf => (wiring_connect hf).1⟩
  by_cases hf : script.Free o i
  · exact hf
  rw [connect_of_not_free hf] at hc
  cases hc

theorem disconnect_iff (h : script.Paired) (o : OutputRef) (i : InputRef) :
    (script.disconnect o i).1 = true ↔ script.Connected o i := by
  rw [(script.wiring_disconnect o i).1, ← h.both, or_self]
  rfl

theorem lost_disconnectOutput (h : script.Paired) (o : OutputRef) :
    script.Lost (script.disconnectOutput o).2 (script.disconnectOutput o).1 := by
  obtain ⟨hn, ht, -⟩ := script.wiring_disconnectOutput o
  refine ⟨(script.targets o).map (o, ·), ?_, ?_, fun o' i => ?_⟩
  · exact (h.targets_nodup o).map fun i i' hi => (Prod.mk.inj hi).2
  · rw [List.length_map, hn]
  · unfold Connected
    rw [ht]
    by_cases ho : o' = o
    · simp [ho]
    · simp [ho, Ne.symm ho]

theorem lost_disconnectInput (h : script.Paired) (i : InputRef) :
    script.Lost (script.disconnectInput i).2 (script.disconnectInput i).1 := by
  obtain ⟨hn, ht, -⟩ := script.wiring_disconnectInput i
  refine ⟨(script.sources i).map (·, i), ?_, ?_, fun o i' => ?_⟩
  · exact (h.sources_nodup i).map fun o o' ho => (Prod.mk.inj ho).1
  · rw [List.length_map, hn]
  · unfold Connected
    rw [ht]
    have hboth := h.both o i
    by_cases hi : i' = i <;> by_cases ho : o ∈ script.sources i <;> simp_all [eq_comm]

/-- Only the connections of the output go, and what stays keeps its order. -/
theorem wiring_disconnectOutput (h : script.Paired) (o : OutputRef) :
    (∀ o', (script.disconnectOutput o).2.targets o' = if o' = o then [] else script.targets o')
      ∧ ∀ i, (script.disconnectOutput o).2.sources i = (script.sources i).filter (· ≠ o) := by
  obtain ⟨-, ht, hs⟩ := script.wiring_disconnectOutput o
  refine ⟨ht, fun i => ?_⟩
  rw [hs]
  split
  · rfl
  · rename_i hi
    rw [h.both] at hi
    refine (List.filter_eq_self.2 fun o' ho' => ?_).symm
    rw [decide_eq_true_eq]
    exact fun heq => hi (heq ▸ ho')

theorem wiring_disconnectInput (h : script.Paired) (i : InputRef) :
    (∀ i', (script.disconnectInput i).2.sources i' = if i' = i then [] else script.sources i')
      ∧ ∀ o, (script.disconnectInput i).2.targets o = (script.targets o).filter (· ≠ i) := by
  obtain ⟨-, ht, hs⟩ := script.wiring_disconnectInput i
  refine ⟨hs, fun o => ?_⟩
  rw [ht]
  split
  · rfl
  · rename_i ho
    rw [← h.both] at ho
    refine (List.filter_eq_self.2 fun i' hi' => ?_).symm
    rw [decide_eq_true_eq]
    exact fun heq => ho (heq ▸ hi')

end Paired

variable [Behavior β]

theorem Reachable.paired {script : Script β} (h : script.Reachable NodeBuilder.Made) :
    script.Paired :=
  h.induction Paired.withRootName (fun _ change places hp => hp.edit change places)
    fun _ _ _ _ _ _ hu hp => hp.of_skeleton (skeleton_lasting.update hu)

/-- In every script that a host can come by, a connection is listed once at either end and both ends
exist. Connecting succeeds exactly for two ends that exist and are not connected, and disconnecting
for two that are. Disconnecting a whole link says how many connections it took off, and takes off no
other. -/
theorem Reachable.connections {script : Script β} (h : script.Reachable NodeBuilder.Made) :
    script.Paired
      ∧ (∀ o i, script.Connected o i → (script.output? o).isSome ∧ (script.input? i).isSome)
      ∧ (∀ o i, (script.connect o i).1 = true ↔
        (script.output? o).isSome ∧ (script.input? i).isSome ∧ ¬ script.Connected o i)
      ∧ (∀ o i, (script.disconnect o i).1 = true ↔ script.Connected o i)
      ∧ (∀ o, script.Lost (script.disconnectOutput o).2 (script.disconnectOutput o).1
        ∧ (∀ o', (script.disconnectOutput o).2.targets o' =
          if o' = o then [] else script.targets o')
        ∧ ∀ i, (script.disconnectOutput o).2.sources i = (script.sources i).filter (· ≠ o))
      ∧ ∀ i, script.Lost (script.disconnectInput i).2 (script.disconnectInput i).1
        ∧ (∀ i', (script.disconnectInput i).2.sources i' =
          if i' = i then [] else script.sources i')
        ∧ ∀ o, (script.disconnectInput i).2.targets o = (script.targets o).filter (· ≠ i) :=
  have hp := h.paired
  ⟨hp, fun _ _ => hp.resolves, hp.connect_iff, hp.disconnect_iff,
    fun o => ⟨hp.lost_disconnectOutput o, hp.wiring_disconnectOutput o⟩,
    fun i => ⟨hp.lost_disconnectInput i, hp.wiring_disconnectInput i⟩⟩

/-- A node with one input and one output. -/
def relayNode : NodeBuilder Agent :=
  ((NodeBuilder.action (coreType "Relay") Agent.relay).input "In").output "Out"

/-- How to come by a node that calls itself and another one. -/
def knotting : List (Edit Agent) :=
  [.addNode rootGraph relayNode, .addNode rootGraph relayNode, .connect ⟨⟨0⟩, 0⟩ ⟨⟨0⟩, 0⟩,
    .connect ⟨⟨0⟩, 0⟩ ⟨⟨1⟩, 0⟩]

/-- The script of two nodes with a knot at the first one. -/
def knot : Script Agent := knotting.foldl Script.edit (withRootName "root")

/-- The output of the first node lets go of its own input and of the other one. -/
theorem connections_of_knot : knot.targets ⟨⟨0⟩, 0⟩ = [⟨⟨0⟩, 0⟩, ⟨⟨1⟩, 0⟩]
    ∧ (knot.disconnectOutput ⟨⟨0⟩, 0⟩).1 = 2
    ∧ knot.Lost (knot.disconnectOutput ⟨⟨0⟩, 0⟩).2 (knot.disconnectOutput ⟨⟨0⟩, 0⟩).1 := by
  have relay : relayNode.Made := .output "Out" (.input "In" (.action _ _))
  have hr : knot.Reachable NodeBuilder.Made := by
    refine .edits (.fresh "root") fun change hc => ?_
    simp only [knotting, List.mem_cons, List.not_mem_nil, or_false] at hc
    rcases hc with rfl | rfl | rfl | rfl
    · exact relay
    · exact relay
    · trivial
    · trivial
  refine ⟨by decide +kernel, by decide +kernel, ?_⟩
  exact ((Reachable.connections hr).2.2.2.2.1 ⟨⟨0⟩, 0⟩).1

end FlowScript.Script
