import FlowScript.Proofs.Lookup
import FlowScript.Proofs.Skeleton

/-!
# Where links lead

The wiring of a script is what the lists at its outputs and inputs hold. Each lemma says what an
operation makes of these lists; whatever leaves the skeleton of the script as it was leaves them as
they were (`targets_of_skeleton`).
-/

namespace FlowScript.Script

variable {β : Type}

/-- The inputs listed at an output; none if there is no such output. -/
def targets (script : Script β) (o : OutputRef) : List InputRef :=
  (script.output? o).elim [] (·.connected)

/-- The outputs listed at an input; none if there is no such input. -/
def sources (script : Script β) (i : InputRef) : List OutputRef :=
  (script.input? i).elim [] (·.connected)

theorem targets_of_output? {script : Script β} {o : OutputRef} {link : OutputLink}
    (h : script.output? o = some link) : script.targets o = link.connected := by
  rw [targets, h, Option.elim_some]

theorem sources_of_input? {script : Script β} {i : InputRef} {link : InputLink}
    (h : script.input? i = some link) : script.sources i = link.connected := by
  rw [sources, h, Option.elim_some]

theorem isSome_of_mem_targets {script : Script β} {o : OutputRef} {i : InputRef}
    (h : i ∈ script.targets o) : (script.output? o).isSome := by
  rw [targets] at h
  rcases ho : script.output? o with _ | link
  · rw [ho] at h
    cases h
  · rfl

theorem isSome_of_mem_sources {script : Script β} {o : OutputRef} {i : InputRef}
    (h : o ∈ script.sources i) : (script.input? i).isSome := by
  rw [sources] at h
  rcases hi : script.input? i with _ | link
  · rw [hi] at h
    cases h
  · rfl

/-! ## What does not touch the wiring -/

theorem targets_skeleton (script : Script β) : script.skeleton.targets = script.targets := by
  funext o
  rw [targets, output?_skeleton, targets]
  rcases script.output? o with _ | link <;> rfl

theorem sources_skeleton (script : Script β) : script.skeleton.sources = script.sources := by
  funext i
  rw [sources, input?_skeleton, sources]

theorem targets_of_skeleton {script script' : Script β} (h : script'.skeleton = script.skeleton) :
    script'.targets = script.targets := by
  rw [← targets_skeleton, h, targets_skeleton]

theorem sources_of_skeleton {script script' : Script β} (h : script'.skeleton = script.skeleton) :
    script'.sources = script.sources := by
  rw [← sources_skeleton, h, sources_skeleton]

/-- Changing nodes in anything but their control links leaves the wiring as it is. -/
theorem wiring_map (script : Script β) {f : Node β → Node β}
    (hf : ∀ n, (f n).id = n.id ∧ (f n).inputs = n.inputs ∧ (f n).outputs = n.outputs) :
    ({ script with nodes := script.nodes.map f } : Script β).targets = script.targets
      ∧ ({ script with nodes := script.nodes.map f } : Script β).sources = script.sources := by
  have hnode := script.node?_map fun n => (hf n).1
  constructor
  · funext o
    rw [targets, output?, hnode, targets, output?]
    rcases script.node? o.node with _ | n
    · rfl
    · rw [Option.map_some, Option.bind_some, Option.bind_some, (hf n).2.2]
  · funext i
    rw [sources, input?, hnode, sources, input?]
    rcases script.node? i.node with _ | n
    · rfl
    · rw [Option.map_some, Option.bind_some, Option.bind_some, (hf n).2.1]

theorem wiring_modifyLink (script : Script β) (ref : ValueLinkRef) (f : ValueLink → ValueLink) :
    (script.modifyLink ref f).targets = script.targets
      ∧ (script.modifyLink ref f).sources = script.sources :=
  script.wiring_map fun n => by split <;> exact ⟨rfl, rfl, rfl⟩

theorem wiring_unbindEverywhere (script : Script β) (cell : NodeId) :
    (script.unbindEverywhere cell).targets = script.targets
      ∧ (script.unbindEverywhere cell).sources = script.sources :=
  script.wiring_map fun _ => ⟨rfl, rfl, rfl⟩

/-! ## Changing one end -/

theorem targets_modifyInput (script : Script β) (ref : InputRef) (f : InputLink → InputLink) :
    (script.modifyInput ref f).targets = script.targets := by
  funext o
  rw [targets, output?_modifyInput, targets]

theorem sources_modifyOutput (script : Script β) (ref : OutputRef) (f : OutputLink → OutputLink) :
    (script.modifyOutput ref f).sources = script.sources := by
  funext i
  rw [sources, input?_modifyOutput, sources]

theorem targets_detach (script : Script β) (o o' : OutputRef) (i : InputRef) :
    (script.modifyOutput o (·.detach i)).targets o' =
      if o' = o then (script.targets o').filter (· ≠ i) else script.targets o' := by
  rw [targets, output?_modifyOutput, targets]
  split
  · rcases script.output? o' with _ | link <;> rfl
  · rfl

theorem sources_detach (script : Script β) (i i' : InputRef) (o : OutputRef) :
    (script.modifyInput i (·.detach o)).sources i' =
      if i' = i then (script.sources i').filter (· ≠ o) else script.sources i' := by
  rw [sources, input?_modifyInput, sources]
  split
  · rcases script.input? i' with _ | link <;> rfl
  · rfl

theorem targets_clear (script : Script β) (o o' : OutputRef) :
    (script.modifyOutput o .clear).targets o' = if o' = o then [] else script.targets o' := by
  rw [targets, output?_modifyOutput, targets]
  split
  · rcases script.output? o' with _ | link <;> rfl
  · rfl

theorem sources_clear (script : Script β) (i i' : InputRef) :
    (script.modifyInput i .clear).sources i' = if i' = i then [] else script.sources i' := by
  rw [sources, input?_modifyInput, sources]
  split
  · rcases script.input? i' with _ | link <;> rfl
  · rfl

theorem targets_attach {script : Script β} {o : OutputRef} {i : InputRef}
    (ho : (script.output? o).isSome) (hi : i ∉ script.targets o) (o' : OutputRef) :
    (script.modifyOutput o (·.attach i)).targets o' =
      if o' = o then script.targets o' ++ [i] else script.targets o' := by
  rw [targets, output?_modifyOutput]
  split
  · rename_i h
    obtain ⟨link, hl⟩ := Option.isSome_iff_exists.1 ho
    rw [targets_of_output? hl] at hi
    rw [h, hl, targets_of_output? hl, Option.map_some, Option.elim_some, OutputLink.attach,
      if_neg hi]
  · rfl

theorem sources_attach {script : Script β} {i : InputRef} {o : OutputRef}
    (hi : (script.input? i).isSome) (ho : o ∉ script.sources i) (i' : InputRef) :
    (script.modifyInput i (·.attach o)).sources i' =
      if i' = i then script.sources i' ++ [o] else script.sources i' := by
  rw [sources, input?_modifyInput]
  split
  · rename_i h
    obtain ⟨link, hl⟩ := Option.isSome_iff_exists.1 hi
    rw [sources_of_input? hl] at ho
    rw [h, hl, sources_of_input? hl, Option.map_some, Option.elim_some, InputLink.attach,
      if_neg ho]
  · rfl

/-! ## Taking one end off many lists -/

theorem wiring_detachOutput (o : OutputRef) : ∀ (inputs : List InputRef) (script : Script β),
    (inputs.foldl (fun s i => s.modifyInput i (·.detach o)) script).targets = script.targets
      ∧ ∀ i, (inputs.foldl (fun s i => s.modifyInput i (·.detach o)) script).sources i =
        if i ∈ inputs then (script.sources i).filter (· ≠ o) else script.sources i
  | [], script => ⟨rfl, fun i => by simp⟩
  | j :: inputs, script => by
    obtain ⟨ht, hs⟩ := wiring_detachOutput o inputs (script.modifyInput j (·.detach o))
    rw [List.foldl_cons]
    refine ⟨ht.trans (script.targets_modifyInput j _), fun i => ?_⟩
    rw [hs, sources_detach]
    by_cases hij : i = j <;> by_cases hi : i ∈ inputs <;> simp [hij, hi]

theorem wiring_detachInput (i : InputRef) : ∀ (outputs : List OutputRef) (script : Script β),
    (∀ o, (outputs.foldl (fun s o => s.modifyOutput o (·.detach i)) script).targets o =
        if o ∈ outputs then (script.targets o).filter (· ≠ i) else script.targets o)
      ∧ (outputs.foldl (fun s o => s.modifyOutput o (·.detach i)) script).sources = script.sources
  | [], script => ⟨fun o => by simp, rfl⟩
  | p :: outputs, script => by
    obtain ⟨ht, hs⟩ := wiring_detachInput i outputs (script.modifyOutput p (·.detach i))
    rw [List.foldl_cons]
    refine ⟨fun o => ?_, hs.trans (script.sources_modifyOutput p _)⟩
    rw [ht, targets_detach]
    by_cases hop : o = p <;> by_cases ho : o ∈ outputs <;> simp [hop, ho]

/-- Of a node that is taken out, the inputs leave the lists of the outputs that they hold. -/
theorem wiring_detachInputs (id : NodeId) : ∀ (links : List InputLink) (index : Nat)
    (script : Script β),
    (∀ o, (script.detachInputs id index links).targets o = (script.targets o).filter fun i =>
        (links.zipIdx index).all fun p => !decide (i = ⟨id, p.2⟩ ∧ o ∈ p.1.connected))
      ∧ (script.detachInputs id index links).sources = script.sources
  | [], index, script => ⟨fun o => (List.filter_eq_self.2 fun _ _ => rfl).symm, rfl⟩
  | link :: links, index, script => by
    obtain ⟨hht, hhs⟩ := wiring_detachInput ⟨id, index⟩ link.connected script
    obtain ⟨ht, hs⟩ := wiring_detachInputs id links (index + 1)
      (link.connected.foldl (fun s o => s.modifyOutput o (·.detach ⟨id, index⟩)) script)
    rw [detachInputs]
    refine ⟨fun o => ?_, hs.trans hhs⟩
    rw [ht, hht, List.zipIdx_cons]
    split
    · rw [List.filter_filter]
      refine List.filter_congr fun i _ => ?_
      simp [*, Bool.and_comm]
    · refine List.filter_congr fun i _ => ?_
      simp [*]

theorem wiring_detachOutputs (id : NodeId) : ∀ (links : List OutputLink) (index : Nat)
    (script : Script β),
    (script.detachOutputs id index links).targets = script.targets
      ∧ ∀ i, (script.detachOutputs id index links).sources i = (script.sources i).filter fun o =>
        (links.zipIdx index).all fun p => !decide (o = ⟨id, p.2⟩ ∧ i ∈ p.1.connected)
  | [], index, script => ⟨rfl, fun i => (List.filter_eq_self.2 fun _ _ => rfl).symm⟩
  | link :: links, index, script => by
    obtain ⟨hht, hhs⟩ := wiring_detachOutput ⟨id, index⟩ link.connected script
    obtain ⟨ht, hs⟩ := wiring_detachOutputs id links (index + 1)
      (link.connected.foldl (fun s i => s.modifyInput i (·.detach ⟨id, index⟩)) script)
    rw [detachOutputs]
    refine ⟨ht.trans hht, fun i => ?_⟩
    rw [hs, hhs, List.zipIdx_cons]
    split
    · rw [List.filter_filter]
      refine List.filter_congr fun o _ => ?_
      simp [*, Bool.and_comm]
    · refine List.filter_congr fun o _ => ?_
      simp [*]

/-! ## Nodes that come and go -/

/-- A node that comes without connections leaves every list as it is. -/
theorem wiring_append (script : Script β) {added : Node β}
    (hin : ∀ link ∈ added.inputs, link.connected = [])
    (hout : ∀ link ∈ added.outputs, link.connected = []) :
    ({ script with nodes := script.nodes ++ [added] } : Script β).targets = script.targets
      ∧ ({ script with nodes := script.nodes ++ [added] } : Script β).sources = script.sources := by
  constructor
  · funext o
    rw [targets, output?, node?_append, targets, output?]
    rcases script.node? o.node with _ | n
    · rw [Option.none_or]
      split
      · rcases hl : added.outputs[o.index]? with _ | link
        · rw [Option.bind_some, hl]
          rfl
        · rw [Option.bind_some, hl, Option.elim_some, hout link (List.mem_of_getElem? hl)]
          rfl
      · rfl
    · rw [Option.some_or]
  · funext i
    rw [sources, input?, node?_append, sources, input?]
    rcases script.node? i.node with _ | n
    · rw [Option.none_or]
      split
      · rcases hl : added.inputs[i.index]? with _ | link
        · rw [Option.bind_some, hl]
          rfl
        · rw [Option.bind_some, hl, Option.elim_some, hin link (List.mem_of_getElem? hl)]
          rfl
      · rfl
    · rw [Option.some_or]

theorem wiring_addNode {script : Script β} {graph : GraphId} {builder : NodeBuilder β}
    {added : NodeId × Script β} (hin : ∀ link ∈ builder.inputs, link.connected = [])
    (hout : ∀ link ∈ builder.outputs, link.connected = [])
    (h : script.addNode graph builder = .ok added) :
    added.2.targets = script.targets ∧ added.2.sources = script.sources := by
  unfold addNode at h
  split at h
  · obtain rfl := Except.ok.inj h
    exact script.wiring_append hin hout
  · cases h

/-- The inputs of a node, one after another, hold what the script finds there. -/
theorem all_zipIdx_inputs {script : Script β} {id : NodeId} {node : Node β}
    (h : script.node? id = some node) (o : OutputRef) (i : InputRef) :
    (node.inputs.zipIdx.all fun p => !decide (i = ⟨id, p.2⟩ ∧ o ∈ p.1.connected))
      = !decide (i.node = id ∧ o ∈ script.sources i) := by
  have hlink : ∀ index, script.input? ⟨id, index⟩ = node.inputs[index]? := by
    intro index
    rw [input?, h, Option.bind_some]
  rw [Bool.eq_iff_iff, List.all_eq_true]
  simp only [Bool.not_eq_true', decide_eq_false_iff_not, Prod.forall,
    List.mk_mem_zipIdx_iff_getElem?]
  constructor
  · rintro hall ⟨rfl, hs⟩
    obtain ⟨link, hl⟩ := Option.isSome_iff_exists.1 (isSome_of_mem_sources hs)
    rw [sources_of_input? hl] at hs
    exact hall link i.index ((hlink i.index).symm.trans hl) ⟨rfl, hs⟩
  · rintro hnot link index hl ⟨rfl, ho⟩
    exact hnot ⟨rfl, by rwa [sources_of_input? ((hlink index).trans hl)]⟩

theorem all_zipIdx_outputs {script : Script β} {id : NodeId} {node : Node β}
    (h : script.node? id = some node) (o : OutputRef) (i : InputRef) :
    (node.outputs.zipIdx.all fun p => !decide (o = ⟨id, p.2⟩ ∧ i ∈ p.1.connected))
      = !decide (o.node = id ∧ i ∈ script.targets o) := by
  have hlink : ∀ index, script.output? ⟨id, index⟩ = node.outputs[index]? := by
    intro index
    rw [output?, h, Option.bind_some]
  rw [Bool.eq_iff_iff, List.all_eq_true]
  simp only [Bool.not_eq_true', decide_eq_false_iff_not, Prod.forall,
    List.mk_mem_zipIdx_iff_getElem?]
  constructor
  · rintro hall ⟨rfl, ht⟩
    obtain ⟨link, hl⟩ := Option.isSome_iff_exists.1 (isSome_of_mem_targets ht)
    rw [targets_of_output? hl] at ht
    exact hall link o.index ((hlink o.index).symm.trans hl) ⟨rfl, ht⟩
  · rintro hnot link index hl ⟨rfl, hi⟩
    exact hnot ⟨rfl, by rwa [targets_of_output? ((hlink index).trans hl)]⟩

/-- A node that is taken out leaves the lists at the other ends of its connections, and only these
change. -/
theorem wiring_removeNode {script : Script β} {id : NodeId} {removed : Node β × Script β}
    (h : script.removeNode id = .ok removed) :
    (∀ o, removed.2.targets o = if o.node = id then [] else
        (script.targets o).filter fun i => !decide (i.node = id ∧ o ∈ script.sources i))
      ∧ ∀ i, removed.2.sources i = if i.node = id then [] else
        (script.sources i).filter fun o => !decide (o.node = id ∧ i ∈ script.targets o) := by
  unfold removeNode at h
  split at h
  · cases h
  rename_i node hnode
  obtain rfl := Except.ok.inj h
  -- The node goes first, so what frees the other ends no longer finds its own lists.
  let without : Script β := { script with nodes := script.nodes.filter (·.id ≠ id) }
  let freed := (without.detachInputs id 0 node.inputs).detachOutputs id 0 node.outputs
  have hfreed : ∀ s : Script β, s = (if node.isValueNode then freed.unbindEverywhere id else freed)
      → s.targets = freed.targets ∧ s.sources = freed.sources := by
    rintro s rfl
    split
    · exact freed.wiring_unbindEverywhere id
    · exact ⟨rfl, rfl⟩
  obtain ⟨hft, hfs⟩ := hfreed _ rfl
  obtain ⟨hit, his⟩ := wiring_detachInputs id node.inputs 0 without
  obtain ⟨hot, hos⟩ := wiring_detachOutputs id node.outputs 0
    (without.detachInputs id 0 node.inputs)
  have hwt : ∀ o, without.targets o = if o.node = id then [] else script.targets o := by
    intro o
    rw [targets, output?, node?_without, targets, output?]
    split <;> rfl
  have hws : ∀ i, without.sources i = if i.node = id then [] else script.sources i := by
    intro i
    rw [sources, input?, node?_without, sources, input?]
    split <;> rfl
  constructor
  · intro o
    refine (congrFun hft o).trans ?_
    rw [hot, hit, hwt]
    split
    · rfl
    · exact List.filter_congr fun i _ => all_zipIdx_inputs hnode o i
  · intro i
    refine (congrFun hfs i).trans ?_
    rw [hos, his, hws]
    split
    · rfl
    · exact List.filter_congr fun o _ => all_zipIdx_outputs hnode o i

/-! ## Connecting and disconnecting -/

/-- Both ends exist and neither lists the other. -/
def Free (script : Script β) (o : OutputRef) (i : InputRef) : Prop :=
  (script.output? o).isSome ∧ (script.input? i).isSome
    ∧ i ∉ script.targets o ∧ o ∉ script.sources i

theorem connect_of_not_free {script : Script β} {o : OutputRef} {i : InputRef}
    (h : ¬ script.Free o i) : script.connect o i = (false, script) := by
  unfold connect
  split
  · rename_i out inp ho hi
    rw [Free, ho, hi, targets_of_output? ho, sources_of_input? hi] at h
    rw [if_pos]
    simpa [Decidable.or_iff_not_imp_left] using h
  · rfl

theorem wiring_connect {script : Script β} {o : OutputRef} {i : InputRef} (h : script.Free o i) :
    (script.connect o i).1 = true
      ∧ (∀ o', (script.connect o i).2.targets o' =
        if o' = o then script.targets o' ++ [i] else script.targets o')
      ∧ ∀ i', (script.connect o i).2.sources i' =
        if i' = i then script.sources i' ++ [o] else script.sources i' := by
  obtain ⟨ho, hi, ht, hs⟩ := h
  have heq : script.connect o i =
      (true, (script.modifyOutput o (·.attach i)).modifyInput i (·.attach o)) := by
    obtain ⟨out, hout⟩ := Option.isSome_iff_exists.1 ho
    obtain ⟨inp, hinp⟩ := Option.isSome_iff_exists.1 hi
    rw [targets_of_output? hout] at ht
    rw [sources_of_input? hinp] at hs
    unfold connect
    rw [hout, hinp]
    simp only [ht, hs, or_self, ↓reduceIte]
  rw [heq]
  refine ⟨rfl, fun o' => ?_, fun i' => ?_⟩
  · rw [targets_modifyInput, targets_attach ho ht]
  · rw [sources_attach (by rwa [input?_modifyOutput]) (by rwa [sources_modifyOutput]),
      sources_modifyOutput]

theorem wiring_disconnect (script : Script β) (o : OutputRef) (i : InputRef) :
    ((script.disconnect o i).1 = true ↔ i ∈ script.targets o ∨ o ∈ script.sources i)
      ∧ (∀ o', (script.disconnect o i).2.targets o' =
        if o' = o then (script.targets o').filter (· ≠ i) else script.targets o')
      ∧ ∀ i', (script.disconnect o i).2.sources i' =
        if i' = i then (script.sources i').filter (· ≠ o) else script.sources i' := by
  unfold disconnect
  refine ⟨?_, fun o' => ?_, fun i' => ?_⟩
  · rw [Bool.or_eq_true, targets, sources]
    refine or_congr ?_ ?_
    · rcases script.output? o with _ | link <;> simp
    · rcases script.input? i with _ | link <;> simp
  · rw [targets_modifyInput, targets_detach]
  · rw [sources_detach, sources_modifyOutput]

theorem wiring_disconnectOutput (script : Script β) (o : OutputRef) :
    (script.disconnectOutput o).1 = (script.targets o).length
      ∧ (∀ o', (script.disconnectOutput o).2.targets o' =
        if o' = o then [] else script.targets o')
      ∧ ∀ i, (script.disconnectOutput o).2.sources i =
        if i ∈ script.targets o then (script.sources i).filter (· ≠ o) else script.sources i := by
  unfold disconnectOutput
  split
  · rename_i ho
    have ht : script.targets o = [] := by rw [targets, ho, Option.elim_none]
    refine ⟨by rw [ht, List.length_nil], fun o' => ?_, fun i => ?_⟩
    · split
      · rename_i h
        rw [h, ht]
      · rfl
    · rw [if_neg (by simp [ht])]
  · rename_i link ho
    obtain ⟨ht, hs⟩ := wiring_detachOutput o link.connected (script.modifyOutput o .clear)
    rw [targets_of_output? ho]
    refine ⟨rfl, fun o' => ?_, fun i => ?_⟩
    · rw [ht, targets_clear]
    · rw [hs, sources_modifyOutput]

theorem wiring_disconnectInput (script : Script β) (i : InputRef) :
    (script.disconnectInput i).1 = (script.sources i).length
      ∧ (∀ o, (script.disconnectInput i).2.targets o =
        if o ∈ script.sources i then (script.targets o).filter (· ≠ i) else script.targets o)
      ∧ ∀ i', (script.disconnectInput i).2.sources i' =
        if i' = i then [] else script.sources i' := by
  unfold disconnectInput
  split
  · rename_i hi
    have hs : script.sources i = [] := by rw [sources, hi, Option.elim_none]
    refine ⟨by rw [hs, List.length_nil], fun o => ?_, fun i' => ?_⟩
    · rw [if_neg (by simp [hs])]
    · split
      · rename_i h
        rw [h, hs]
      · rfl
  · rename_i link hi
    obtain ⟨ht, hs⟩ := wiring_detachInput i link.connected (script.modifyInput i .clear)
    rw [sources_of_input? hi]
    refine ⟨rfl, fun o => ?_, fun i' => ?_⟩
    · rw [ht, targets_modifyInput]
    · rw [hs, sources_clear]

end FlowScript.Script
