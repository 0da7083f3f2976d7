import FlowScript.Proofs.Arena
import FlowScript.Proofs.InPlace

/-!
# What is refused changes nothing

A request is refused by an error, by `false`, or by a count of zero. Errors come before the first
change of the state, except that a graph is removed node by node. That removal never stops half
way, because a graph lists nodes that exist and lists each once (`Filed.removeGraphs_ok`). A
refusal by `false` or by zero may come after a write, but then the write changed nothing in the
link or the node that it reached, and so nothing in the script (`Arena.modifyNode_eq_self`).
-/

namespace FlowScript

variable {β : Type}

/-- What a request answers when it does not stop. -/
inductive Reply where
  | done
  /-- Whether it did anything. -/
  | flag (value : Bool)
  /-- How much was taken off. -/
  | count (number : Nat)
deriving DecidableEq

/-- Answers that say that nothing was done. -/
inductive Refused : Except ScriptError Reply → Prop where
  | stopped (error : ScriptError) : Refused (.error error)
  | denied : Refused (.ok (.flag false))
  | zero : Refused (.ok (.count 0))

namespace Refused

theorem flag_eq_false {value : Bool} (h : Refused (.ok (.flag value))) : value = false := by
  cases h
  rfl

theorem count_eq_zero {number : Nat} (h : Refused (.ok (.count number))) : number = 0 := by
  cases h
  rfl

theorem stops {α : Type} {result : Except ScriptError α}
    (h : Refused (result.map fun _ => .done)) : ∃ error, result = .error error := by
  rcases result with error | a
  · exact ⟨error, rfl⟩
  · cases h

end Refused

namespace Script

/-- Puts a request to a node; `false` when there is no such node. -/
def ask (script : Script β) (id : NodeId) (request : Node β → Bool × Node β) : Bool × Script β :=
  ((script.node? id).any fun node => (request node).1, script.modifyNode id fun n => (request n).2)

/-- What an edit answers. -/
def reply (script : Script β) : Edit β → Except ScriptError Reply
  | .addGraph parent name => (script.addGraph parent name).map fun _ => .done
  | .setGraphName _ _ => .ok .done
  | .removeGraph graph => (script.removeGraph graph).map fun _ => .done
  | .addNode graph builder => (script.addNode graph builder).map fun _ => .done
  | .removeNode node => (script.removeNode node).map fun _ => .done
  | .connect output input => .ok (.flag (script.connect output input).1)
  | .connectByName source output target input =>
    (script.connectByName source output target input).map (.flag ·.1)
  | .disconnect output input => .ok (.flag (script.disconnect output input).1)
  | .disconnectOutput output => .ok (.count (script.disconnectOutput output).1)
  | .disconnectInput input => .ok (.count (script.disconnectInput input).1)
  | .connectValue link cell => (script.connectValue link cell).map fun _ => .done
  | .connectValueByName node name cell =>
    (script.connectValueByName node name cell).map fun _ => .done
  | .disconnectValue link cell => .ok (.count (script.disconnectValue link cell).1)
  | .setProperty node name value => .ok (.flag (script.setProperty node name value).1)
  | .setLinkValue link slot value => .ok (.flag (script.setLinkValue link slot value).1)
  | .setLocalProperty node name value =>
    .ok (.flag (script.ask node (·.setLocalProperty name value)).1)
  | .setValue node value => .ok (.flag (script.ask node (·.setValue value)).1)
  | .activateOutput node index => .ok (.flag (script.ask node (·.activateOutput index)).1)

end Script

/-- The edit as a program that works in place. -/
def Edit.inPlace : Edit β → InPlace (Script β) Reply
  | .addGraph parent name => (fun _ => .done) <$> InPlace.addGraph parent name
  | .setGraphName graph name => modifyGet fun script => (.done, script.setGraphName graph name)
  | .removeGraph graph => (fun _ => .done) <$> InPlace.removeGraph graph
  | .addNode graph builder => (fun _ => .done) <$> InPlace.addNode graph builder
  | .removeNode node => (fun _ => .done) <$> InPlace.removeNode node
  | .connect output input => .flag <$> modifyGet (·.connect output input)
  | .connectByName source output target input =>
    .flag <$> InPlace.connectByName source output target input
  | .disconnect output input => .flag <$> modifyGet (·.disconnect output input)
  | .disconnectOutput output => .count <$> modifyGet (·.disconnectOutput output)
  | .disconnectInput input => .count <$> modifyGet (·.disconnectInput input)
  | .connectValue link cell => (fun _ => .done) <$> InPlace.connectValue link cell
  | .connectValueByName node name cell =>
    (fun _ => .done) <$> InPlace.connectValueByName node name cell
  | .disconnectValue link cell => .count <$> modifyGet (·.disconnectValue link cell)
  | .setProperty node name value => .flag <$> modifyGet (·.setProperty node name value)
  | .setLinkValue link slot value => .flag <$> modifyGet (·.setLinkValue link slot value)
  | .setLocalProperty node name value =>
    .flag <$> modifyGet (·.ask node (·.setLocalProperty name value))
  | .setValue node value => .flag <$> modifyGet (·.ask node (·.setValue value))
  | .activateOutput node index => .flag <$> modifyGet (·.ask node (·.activateOutput index))

/-- A program ends as an operation is defined, and where it stops it has changed nothing. -/
structure InPlace.Ends {σ α : Type} (program : InPlace σ α) (state : σ)
    (result : Except ScriptError (α × σ)) : Prop where
  defined : program.on state = settled state result
  kept : ∀ error, (program.on state).1 = .error error → (program.on state).2 = state

theorem InPlace.Ends.of_settled {σ α : Type} {program : InPlace σ α} {state : σ}
    {result : Except ScriptError (α × σ)} (h : program.on state = settled state result) :
    program.Ends state result := by
  refine ⟨h, fun error he => ?_⟩
  rw [h] at he ⊢
  rcases result with error' | ⟨a, next⟩
  · rfl
  · cases he

/-! ## Removals do not stop half way -/

namespace Script

theorem removeNode_ok {script : Script β} {id : NodeId} (h : id ∈ script.members.map (·.id)) :
    ∃ removed, script.removeNode id = .ok removed := by
  obtain ⟨m, hm, rfl⟩ := List.mem_map.1 h
  obtain ⟨node, hnode, rfl⟩ := List.mem_map.1 hm
  unfold removeNode
  split
  · rename_i hn
    exact absurd (List.find?_eq_none.1 hn node hnode) (by simp [Node.member])
  · exact ⟨_, rfl⟩

/-- Nodes can be removed one after another if all exist and none is asked for twice. -/
theorem removeNodes_ok : ∀ (ids : List NodeId) {script : Script β}, ids.Nodup →
    (∀ id ∈ ids, id ∈ script.members.map (·.id)) → ∃ rest, removeNodes ids script = .ok rest
  | [], script, _, _ => ⟨script, rfl⟩
  | id :: ids, script, hn, hlive => by
    rw [List.nodup_cons] at hn
    rw [List.forall_mem_cons] at hlive
    obtain ⟨removed, hr⟩ := removeNode_ok hlive.1
    have hleft : ∀ other ∈ ids, other ∈ removed.2.members.map (·.id) := by
      intro other ho
      obtain ⟨m, hm, rfl⟩ := List.mem_map.1 (hlive.2 other ho)
      have hne : m.id ≠ id := fun heq => hn.1 (heq ▸ ho)
      rw [members_removeNode hr]
      exact List.mem_map_of_mem (List.mem_filter.2 ⟨hm, by simpa using hne⟩)
    obtain ⟨rest, hrest⟩ := removeNodes_ok ids hn.2 hleft
    exact ⟨rest, by rw [removeNodes, hr]; exact hrest⟩

namespace Filed

theorem removeMembers_ok {script : Script β} (h : script.Filed) (id : GraphId) :
    ∃ rest, removeNodes ((script.graph? id).elim [] (·.nodes)) script = .ok rest := by
  rcases hg : script.graph? id with _ | graph
  · exact ⟨script, rfl⟩
  have hlisted := h.listed graph (List.mem_of_find?_eq_some hg)
  rw [Option.elim_some, hlisted]
  refine removeNodes_ok _ ?_ fun id hid => ?_
  · exact h.nodup.sublist (List.filter_sublist.map _)
  · exact (List.filter_sublist.map _).subset hid

theorem removeGraphs_ok : ∀ (ids : List GraphId) {script : Script β}, script.Filed →
    ∃ rest, removeGraphs ids script = .ok rest
  | [], script, _ => ⟨script, rfl⟩
  | id :: ids, script, h => by
    obtain ⟨emptied, he⟩ := h.removeMembers_ok id
    obtain ⟨rest, hrest⟩ := removeGraphs_ok ids (h.dropped he)
    exact ⟨rest, by rw [removeGraphs, he]; exact hrest⟩

end Filed

end Script

/-! ## What stays itself -/

theorem modify_eq_self {α : Type} {l : List α} {index : Nat} {f : α → α}
    (hf : ∀ a, l[index]? = some a → f a = a) : l.modify index f = l := by
  refine List.ext_getElem? fun k => ?_
  rw [List.getElem?_modify]
  by_cases hk : index = k
  · subst hk
    rcases ha : l[index]? with _ | a
    · rfl
    · simp [hf a ha]
  · simp [hk]

theorem InputLink.detach_eq_self {link : InputLink} {o : OutputRef} (h : o ∉ link.connected) :
    link.detach o = link := by
  rw [detach, List.filter_eq_self.2 fun o' ho => by simpa using ne_of_mem_of_not_mem ho h]

theorem OutputLink.detach_eq_self {link : OutputLink} {i : InputRef} (h : i ∉ link.connected) :
    link.detach i = link := by
  rw [detach, List.filter_eq_self.2 fun i' hi => by simpa using ne_of_mem_of_not_mem hi h]

theorem ValueLink.detach_eq_self {link : ValueLink} {cell : NodeId} (h : cell ∉ link.bound) :
    link.detach cell = link := by
  rw [detach, List.filter_eq_self.2 fun id hid => by simpa using ne_of_mem_of_not_mem hid h]

namespace Node

variable {node : Node β}

theorem setValue_refused {value : Property} (h : (node.setValue value).1 = false) :
    (node.setValue value).2 = node := by
  unfold setValue at h ⊢
  split
  · rename_i hs
    simp [hs] at h
  · rfl

theorem setLocalProperty_refused {name : String} {value : Property}
    (h : (node.setLocalProperty name value).1 = false) :
    (node.setLocalProperty name value).2 = node := by
  unfold setLocalProperty at h ⊢
  split
  · rename_i hc
    rw [if_pos hc] at h
    exact setValue_refused h
  · rename_i hc
    rw [if_neg hc] at h
    split at h <;> cases h

theorem activateOutput_refused {index : Nat} (h : (node.activateOutput index).1 = false) :
    (node.activateOutput index).2 = node := by
  unfold activateOutput at h ⊢
  split at h
  · cases h
  · rename_i hlt
    rw [if_neg hlt]

end Node

namespace Script

variable {script : Script β}

theorem on_map_settled {α : Type} {program : InPlace (Script β) α}
    {result : Except ScriptError (α × Script β)} (h : program.on script = settled script result)
    (f : α → Reply) : (f <$> program).on script =
      (result.map (f ·.1), script.unlessRefused (result.map (·.2))) := by
  rw [InPlace.on_map, h]
  rcases result with error | ⟨a, next⟩
  · rfl
  · rfl

theorem on_map_settled_unit {program : InPlace (Script β) Unit}
    {result : Except ScriptError (Script β)}
    (h : program.on script = settled script (result.map ((), ·))) (f : Unit → Reply) :
    (f <$> program).on script = (result.map fun _ => f (), script.unlessRefused result) := by
  rw [InPlace.on_map, h]
  rcases result with error | next
  · rfl
  · rfl

theorem unlessRefused_done {result : Except ScriptError (Script β)}
    (hr : Refused (result.map fun _ => .done)) : script.unlessRefused result = script := by
  obtain ⟨error, rfl⟩ := hr.stops
  rfl

theorem unlessRefused_map_done {α : Type} {result : Except ScriptError (α × Script β)}
    (hr : Refused (result.map fun _ => .done)) :
    script.unlessRefused (result.map (·.2)) = script := by
  obtain ⟨error, rfl⟩ := hr.stops
  rfl

theorem connect_refused {o : OutputRef} {i : InputRef} (hc : (script.connect o i).1 = false) :
    (script.connect o i).2 = script := by
  unfold connect at hc ⊢
  split
  · rename_i output input ho hi
    simp only [ho, hi] at hc
    by_cases hlisted : i ∈ output.connected ∨ o ∈ input.connected
    · rw [if_pos hlisted]
    · rw [if_neg hlisted] at hc
      cases hc
  · rfl

namespace Arena

section itself

variable (h : script.Arena)

include h

theorem modifyNode_eq_self {id : NodeId} {f : Node β → Node β}
    (hf : ∀ node, script.node? id = some node → f node = node) :
    script.modifyNode id f = script := by
  have hnodes : (script.nodes.map fun n => if n.id = id then f n else n) = script.nodes := by
    refine (List.map_congr_left fun n hn => ?_).trans (List.map_id _)
    split
    · rename_i hid
      exact hf n (hid ▸ h.node?_eq hn)
    · rfl
  rw [modifyNode, hnodes]

theorem modifyInput_eq_self {ref : InputRef} {f : InputLink → InputLink}
    (hf : ∀ link, script.input? ref = some link → f link = link) :
    script.modifyInput ref f = script := by
  refine h.modifyNode_eq_self fun node hn => ?_
  rw [Node.modifyInput, modify_eq_self fun link hl => hf link (by rw [input?, hn]; exact hl)]

theorem modifyOutput_eq_self {ref : OutputRef} {f : OutputLink → OutputLink}
    (hf : ∀ link, script.output? ref = some link → f link = link) :
    script.modifyOutput ref f = script := by
  refine h.modifyNode_eq_self fun node hn => ?_
  rw [Node.modifyOutput, modify_eq_self fun link hl => hf link (by rw [output?, hn]; exact hl)]

theorem modifyLink_eq_self {ref : ValueLinkRef} {f : ValueLink → ValueLink}
    (hf : ∀ link, script.link? ref = some link → f link = link) :
    script.modifyLink ref f = script := by
  refine h.modifyNode_eq_self fun node hn => ?_
  rw [Node.modifyLink, modify_eq_self fun link hl => hf link (by rw [link?, hn]; exact hl)]

theorem ask_refused {id : NodeId} {request : Node β → Bool × Node β}
    (hr : ∀ node, (request node).1 = false → (request node).2 = node)
    (ha : (script.ask id request).1 = false) : (script.ask id request).2 = script := by
  refine h.modifyNode_eq_self fun node hn => hr node ?_
  rwa [ask, hn] at ha

theorem disconnect_refused {o : OutputRef} {i : InputRef}
    (hd : (script.disconnect o i).1 = false) : (script.disconnect o i).2 = script := by
  simp only [disconnect, Bool.or_eq_false_iff] at hd ⊢
  rw [h.modifyOutput_eq_self, h.modifyInput_eq_self]
  · intro link hl
    rw [hl] at hd
    exact InputLink.detach_eq_self (by simpa using hd.2)
  · intro link hl
    rw [hl] at hd
    exact OutputLink.detach_eq_self (by simpa using hd.1)

theorem disconnectOutput_zero {o : OutputRef} (hd : (script.disconnectOutput o).1 = 0) :
    (script.disconnectOutput o).2 = script := by
  unfold disconnectOutput at hd ⊢
  rcases ho : script.output? o with _ | link
  · rfl
  rw [ho] at hd
  have hnil : link.connected = [] := List.eq_nil_of_length_eq_zero hd
  simp only [hnil, List.foldl_nil]
  refine h.modifyOutput_eq_self fun link' hl => ?_
  obtain rfl := Option.some.inj (ho.symm.trans hl)
  rw [OutputLink.clear, ← hnil]

theorem disconnectInput_zero {i : InputRef} (hd : (script.disconnectInput i).1 = 0) :
    (script.disconnectInput i).2 = script := by
  unfold disconnectInput at hd ⊢
  rcases hi : script.input? i with _ | link
  · rfl
  rw [hi] at hd
  have hnil : link.connected = [] := List.eq_nil_of_length_eq_zero hd
  simp only [hnil, List.foldl_nil]
  refine h.modifyInput_eq_self fun link' hl => ?_
  obtain rfl := Option.some.inj (hi.symm.trans hl)
  rw [InputLink.clear, ← hnil]

theorem disconnectValue_zero {ref : ValueLinkRef} {cell : Option NodeId}
    (hd : (script.disconnectValue ref cell).1 = 0) :
    (script.disconnectValue ref cell).2 = script := by
  unfold disconnectValue at hd ⊢
  rcases hl : script.link? ref with _ | link
  · rfl
  rw [hl] at hd
  rcases cell with _ | id
  · have hnil : link.bound = [] := List.eq_nil_of_length_eq_zero hd
    refine h.modifyLink_eq_self fun link' hl' => ?_
    obtain rfl := Option.some.inj (hl.symm.trans hl')
    rw [ValueLink.clear, ← hnil]
  · have hout : id ∉ link.bound := by simpa using hd
    refine h.modifyLink_eq_self fun link' hl' => ?_
    obtain rfl := Option.some.inj (hl.symm.trans hl')
    exact ValueLink.detach_eq_self hout

theorem setCell_refused {cell : NodeId} {value : Property}
    (hs : (script.setCell cell value).1 = false) : (script.setCell cell value).2 = script := by
  unfold setCell at hs ⊢
  rcases hn : script.node? cell with _ | node
  · rfl
  rw [hn] at hs
  refine h.modifyNode_eq_self fun node' hn' => ?_
  obtain rfl := Option.some.inj (hn.symm.trans hn')
  exact Node.setValue_refused hs

theorem setLinkValue_refused {ref : ValueLinkRef} {slot : Nat} {value : Property}
    (hs : (script.setLinkValue ref slot value).1 = false) :
    (script.setLinkValue ref slot value).2 = script := by
  unfold setLinkValue at hs ⊢
  rcases hb : script.liveBindings ref with _ | ⟨first, others⟩
  · simp only [hb] at hs ⊢
    by_cases hfree : slot = 0 ∧ (script.link? ref).isSome
    · rw [if_pos hfree] at hs
      cases hs
    · rw [if_neg hfree]
  · simp only [hb] at hs ⊢
    rcases hc : (first :: others)[slot]? with _ | cell
    · rfl
    · rw [hc] at hs
      exact h.setCell_refused hs

/-- Slots are written one after another, and where none takes the value each finds the script as it
was. -/
theorem setSlots_refused {ref : ValueLinkRef} {value : Property} : ∀ (slots : Nat),
    (setSlots ref value slots script).1 = false → (setSlots ref value slots script).2 = script
  | 0, _ => rfl
  | slots + 1, hs => by
    simp only [setSlots, Bool.or_eq_false_iff] at hs ⊢
    have hbefore := setSlots_refused slots hs.1
    rw [hbefore] at hs ⊢
    exact h.setLinkValue_refused hs.2

theorem setProperty_refused {node : NodeId} {name : String} {value : Property}
    (hs : (script.setProperty node name value).1 = false) :
    (script.setProperty node name value).2 = script := by
  unfold setProperty at hs ⊢
  rcases hn : script.node? node with _ | owner
  · rfl
  rw [hn] at hs
  rcases hi : owner.linkIndex? name with _ | index
  · simp only [hi] at hs ⊢
    refine h.modifyNode_eq_self fun node' hn' => ?_
    obtain rfl := Option.some.inj (hn.symm.trans hn')
    exact Node.setLocalProperty_refused hs
  · simp only [hi] at hs ⊢
    exact h.setSlots_refused _ hs

/-! ## Edits -/

/-- An edit that is refused leaves the script as it was. -/
theorem edit_refused (change : Edit β) (hr : Refused (script.reply change)) :
    script.edit change = script := by
  cases change with
  | addGraph parent name => exact unlessRefused_map_done hr
  | setGraphName graph name => cases hr
  | removeGraph graph => exact unlessRefused_done hr
  | addNode graph builder => exact unlessRefused_map_done hr
  | removeNode node => exact unlessRefused_map_done hr
  | connect output input => exact connect_refused hr.flag_eq_false
  | connectByName source output target input =>
    rw [reply] at hr
    rw [Script.edit]
    rcases hc : script.connectByName source output target input with error | ⟨made, next⟩
    · rfl
    · rw [hc] at hr
      obtain ⟨o, -, hc⟩ := bind_eq_ok.1 hc
      obtain ⟨i, -, hc⟩ := bind_eq_ok.1 hc
      obtain ⟨rfl, rfl⟩ := Prod.mk.inj (Except.ok.inj hc)
      exact connect_refused hr.flag_eq_false
  | disconnect output input => exact h.disconnect_refused hr.flag_eq_false
  | disconnectOutput output => exact h.disconnectOutput_zero hr.count_eq_zero
  | disconnectInput input => exact h.disconnectInput_zero hr.count_eq_zero
  | connectValue link cell => exact unlessRefused_done hr
  | connectValueByName node name cell => exact unlessRefused_done hr
  | disconnectValue link cell => exact h.disconnectValue_zero hr.count_eq_zero
  | setProperty node name value => exact h.setProperty_refused hr.flag_eq_false
  | setLinkValue link slot value => exact h.setLinkValue_refused hr.flag_eq_false
  | setLocalProperty node name value =>
    exact h.ask_refused (fun _ => Node.setLocalProperty_refused) hr.flag_eq_false
  | setValue node value =>
    exact h.ask_refused (fun _ => Node.setValue_refused) hr.flag_eq_false
  | activateOutput node index =>
    exact h.ask_refused (fun _ => Node.activateOutput_refused) hr.flag_eq_false

theorem on_removeGraph (id : GraphId) : (InPlace.removeGraph id).on script =
    settled script ((script.removeGraph id).map ((), ·)) :=
  InPlace.on_removeGraph script (h.filed.removeGraphs_ok _)

/-- A graph that exists and is not the root can be removed. -/
theorem removeGraph_ok {graph : Graph} (hg : graph ∈ script.graphs) (hroot : graph.id ≠ rootGraph) :
    ∃ rest, script.removeGraph graph.id = .ok rest := by
  obtain ⟨rest, hrest⟩ := h.filed.removeGraphs_ok (script.subtree graph.id).reverse
  have hfind : script.graph? graph.id = some graph := find?_of_mem h.nesting.nodup hg
  unfold Script.removeGraph
  rw [if_neg hroot, hfind]
  simp only [hrest]
  rcases graph.parent with _ | parent
  · exact ⟨rest, rfl⟩
  · exact ⟨_, rfl⟩

/-- An edit in place answers what the operation answers and leaves what the edit results in. -/
theorem on_inPlace (change : Edit β) :
    change.inPlace.on script = (script.reply change, script.edit change) := by
  cases change with
  | addGraph parent name => exact on_map_settled (InPlace.on_addGraph script parent name) _
  | setGraphName graph name => rfl
  | removeGraph graph => exact on_map_settled_unit (h.on_removeGraph graph) _
  | addNode graph builder => exact on_map_settled (InPlace.on_addNode script graph builder) _
  | removeNode node => exact on_map_settled (InPlace.on_removeNode script node) _
  | connect output input => rfl
  | connectByName source output target input =>
    exact on_map_settled (InPlace.on_connectByName script source output target input) _
  | disconnect output input => rfl
  | disconnectOutput output => rfl
  | disconnectInput input => rfl
  | connectValue link cell => exact on_map_settled_unit (InPlace.on_connectValue script link cell) _
  | connectValueByName node name cell =>
    exact on_map_settled_unit (InPlace.on_connectValueByName script node name cell) _
  | disconnectValue link cell => rfl
  | setProperty node name value => rfl
  | setLinkValue link slot value => rfl
  | setLocalProperty node name value => rfl
  | setValue node value => rfl
  | activateOutput node index => rfl

end itself

end Arena

/-- Whatever is refused leaves everything as it was. That holds of every edit of a script that a
host can come by, in place and at whichever statement it is refused, and likewise of nodes of
registered types, of registrations, and of activations injected into a director. A graph that
exists and is not the root is removed to the end. -/
theorem Reachable.refusals [Behavior β] {placed : NodeBuilder β → Prop} {script : Script β}
    (h : script.Reachable placed) (registry : Registry β) (director : Director β) :
    (∀ change : Edit β, change.inPlace.on script = (script.reply change, script.edit change)
        ∧ (Refused (change.inPlace.on script).1 → (change.inPlace.on script).2 = script))
      ∧ (∀ graph type properties, (InPlace.instantiate registry graph type properties).Ends script
          (registry.instantiate script graph type properties))
      ∧ (∀ type factory, (InPlace.register type factory).Ends registry
          ((registry.register type factory).map ((), ·)))
      ∧ (∀ activation, (InPlace.enqueue activation).Ends director
          ((director.enqueue activation).map ((), ·)))
      ∧ (∀ graph node input, (InPlace.triggerInput graph node input).Ends director
          ((director.triggerInput graph node input).map ((), ·)))
      ∧ ∀ graph ∈ script.graphs, graph.id ≠ rootGraph → ∃ rest,
          script.removeGraph graph.id = .ok rest
            ∧ (InPlace.removeGraph graph.id).on script = (.ok (), rest) := by
  have ha := h.arena
  refine ⟨fun change => ?_, fun graph type properties => ?_, fun type factory => ?_,
    fun activation => ?_, fun graph node input => ?_, fun graph hg hroot => ?_⟩
  · rw [ha.on_inPlace]
    exact ⟨rfl, ha.edit_refused change⟩
  · exact .of_settled (InPlace.on_instantiate script registry graph type properties)
  · exact .of_settled (InPlace.on_register registry type factory)
  · exact .of_settled (InPlace.on_enqueue director activation)
  · exact .of_settled (InPlace.on_triggerInput director graph node input)
  · obtain ⟨rest, hrest⟩ := ha.removeGraph_ok hg hroot
    refine ⟨rest, hrest, ?_⟩
    rw [ha.on_removeGraph, hrest]
    rfl

/-- In a script with a graph left, what is gone cannot be removed again and what is not there
cannot be connected, and the graph that is left can be removed with the graph and the node in it. -/
theorem refusals_of_glade :
    glade.reply (.removeGraph ⟨1⟩) = .error (.graphNotFound ⟨1⟩)
      ∧ ((Edit.removeGraph ⟨1⟩).inPlace.on glade).2 = glade
      ∧ ((Edit.connect ⟨⟨1⟩, 0⟩ ⟨⟨3⟩, 0⟩).inPlace.on glade).2 = glade
      ∧ ∃ rest, (InPlace.removeGraph ⟨3⟩).on glade = (.ok (), rest) ∧ rest.nodes.length = 1 := by
  have hr : glade.Reachable fun _ => True := by
    refine .edits (.fresh "root") fun change _ => ?_
    cases change <;> trivial
  obtain ⟨hedit, -, -, -, -, hremove⟩ := Reachable.refusals hr {} { script := glade }
  have hgone : glade.reply (.removeGraph ⟨1⟩) = .error (.graphNotFound ⟨1⟩) := by rfl
  have hnone : glade.reply (.connect ⟨⟨1⟩, 0⟩ ⟨⟨3⟩, 0⟩) = .ok (.flag false) := by rfl
  refine ⟨hgone, (hedit _).2 ?_, (hedit _).2 ?_, ?_⟩
  · rw [(hedit _).1, hgone]
    exact .stopped _
  · rw [(hedit _).1, hnone]
    exact .denied
  · have hlive : (⟨3⟩ : GraphId) ∈ glade.graphs.map (·.id) := by decide +kernel
    obtain ⟨graph, hg, hid⟩ := List.mem_map.1 hlive
    obtain ⟨rest, hrest, hon⟩ := hremove graph hg (by rw [hid]; decide)
    rw [hid] at hrest hon
    have hleft : (glade.removeGraph ⟨3⟩).map (·.nodes.length) = .ok 1 := by rfl
    rw [hrest] at hleft
    exact ⟨rest, hon, Except.ok.inj hleft⟩

end Script

end FlowScript
