import FlowScript.Proofs.Untouched

/-!
# What a read finds

A read looks at value links, cells and plain properties and at nothing else
(`Readable.property?`). What is written under the name of a value link is read there again, if every
cell that is bound to it takes the value as it is (`property?_setProperty`).
-/

namespace FlowScript

variable {β γ : Type}

/-- What a read sees of a node. -/
def Node.readable (node : Node β) : Node β := { node with behavior := none, outputs := [] }

theorem Node.Booked.readable {node node' : Node β} (h : node.Booked node') :
    node'.readable = node.readable := by
  obtain ⟨behavior, outputs, rfl, -⟩ := h
  rfl

/-! ## Names -/

theorem Node.linkIndex?_of_shape {node : Node β} {described : NodeBuilder γ}
    (h : node.shape = described.shape) (name : String) :
    node.linkIndex? name = position? (·.name == name) described.links := by
  have hlinks : node.links.map ValueLink.shape = described.links.map ValueLink.shape :=
    (congrArg NodeBuilder.links h :)
  have hnames := congrArg (List.map fun link : ValueLink => link.name == name) hlinks
  rw [List.map_map, List.map_map] at hnames
  exact position?_congr hnames

theorem Node.outputIndex?_of_shape {node : Node β} {described : NodeBuilder γ}
    (h : node.shape = described.shape) (name : String) :
    node.outputIndex? name = position? (·.name == name) described.outputs := by
  have houtputs : node.outputs.map OutputLink.shape = described.outputs.map OutputLink.shape :=
    (congrArg NodeBuilder.outputs h :)
  have hnames := congrArg (List.map fun link : OutputLink => link.name == name) houtputs
  rw [List.map_map, List.map_map] at hnames
  exact position?_congr hnames

theorem Node.linkIndex?_of_skeleton {node node' : Node β} (h : node'.skeleton = node.skeleton) :
    node'.linkIndex? = node.linkIndex? := by
  have hlinks : node'.links.map ValueLink.skeleton = node.links.map ValueLink.skeleton :=
    (congrArg Node.links h :)
  funext name
  have hnames := congrArg (List.map fun link : ValueLink => link.name == name) hlinks
  rw [List.map_map, List.map_map] at hnames
  exact position?_congr hnames

/-! ## Reads and writes -/

namespace Script

/-- A read sees the same of both scripts. -/
def Readable (script script' : Script β) : Prop :=
  ∀ id, (script'.node? id).map Node.readable = (script.node? id).map Node.readable

namespace Readable

variable {script script' script'' : Script β}

theorem trans (h : script.Readable script') (h' : script'.Readable script'') :
    script.Readable script'' :=
  fun id => (h' id).trans (h id)

theorem modifyNode (script : Script β) (id : NodeId) {f : Node β → Node β}
    (hf : ∀ node : Node β, node.Booked (f node)) : script.Readable (script.modifyNode id f) := by
  intro id'
  rw [node?_modifyNode script f fun node => (hf node).id]
  split
  · rw [Option.map_map]
    exact congrArg (Option.map · _) (funext fun node => (hf node).readable)
  · rfl

theorem bind (h : script.Readable script') {g : Node β → Option γ}
    (hg : ∀ node, g node.readable = g node) (id : NodeId) :
    (script'.node? id).bind g = (script.node? id).bind g := by
  have hview : ∀ node? : Option (Node β), (node?.map Node.readable).bind g = node?.bind g := by
    rintro (_ | node)
    · rfl
    · exact hg node
  rw [← hview, h id, hview]

theorem liveBindings (h : script.Readable script') :
    script'.liveBindings = script.liveBindings := by
  have hcell : script'.isCell = script.isCell := by
    have hvalue : ∀ (s : Script β) id, s.isCell id
        = ((s.node? id).bind fun node => some node.isValueNode).getD false := by
      intro s id
      rw [isCell]
      rcases s.node? id with _ | node <;> rfl
    funext id
    rw [hvalue, hvalue, h.bind fun _ => rfl]
  funext ref
  rw [Script.liveBindings, Script.liveBindings, link?, link?, h.bind (fun _ => rfl), hcell]

theorem linkValue? (h : script.Readable script') : script'.linkValue? = script.linkValue? := by
  funext ref slot
  unfold Script.linkValue?
  rw [h.liveBindings, link?, link?, h.bind fun _ => rfl]
  split
  · rfl
  · rcases (script.liveBindings ref)[slot]? with _ | cell
    · rfl
    · exact h.bind (g := (·.value?)) (fun _ => rfl) cell

theorem property? (h : script.Readable script') : script'.property? = script.property? := by
  have hread : ∀ (s : Script β) id name, s.property? id name = (s.node? id).bind fun owner =>
      (owner.linkIndex? name).elim (Keyed.get? owner.properties name)
        fun index => s.linkValue? ⟨id, index⟩ 0 := by
    intro s id name
    unfold Script.property?
    rcases s.node? id with _ | owner
    · rfl
    · dsimp only [Option.bind_some]
      rcases owner.linkIndex? name with _ | index <;> rfl
  funext id name
  rw [hread, hread, h.linkValue?]
  exact h.bind (fun _ => rfl) id

end Readable

/-- The link is there, and each cell that is bound to it takes the value as it is. -/
structure Takes (script : Script β) (ref : ValueLinkRef) (value : Property) : Prop where
  link : (script.link? ref).isSome = true
  cells : ∀ cell ∈ script.liveBindings ref, ∀ node, script.node? cell = some node →
    node.valueType.bind value.coerce = some value

namespace Takes

variable {script script' : Script β} {ref : ValueLinkRef} {value : Property}

theorem of_skeleton (h : script.Takes ref value) (hs : script'.skeleton = script.skeleton) :
    script'.Takes ref value := by
  constructor
  · have hlink := script'.link?_skeleton ref
    rw [hs, script.link?_skeleton] at hlink
    have hsome : ((script.link? ref).map ValueLink.skeleton).isSome = true := by
      rw [Option.isSome_map, h.link]
    rw [hlink, Option.isSome_map] at hsome
    exact hsome
  · intro cell hc node' hn'
    rw [liveBindings_of_skeleton hs] at hc
    obtain ⟨node, hn, hsame⟩ := node?_of_skeleton hs hn'
    rw [show node'.valueType = node.valueType from (congrArg Node.valueType hsame :)]
    exact h.cells cell hc node hn

theorem value?_setCell (h : script.Takes ref value) {cell : NodeId}
    (hc : cell ∈ script.liveBindings ref) (other : NodeId) :
    ((script.setCell cell value).2.node? other).bind (·.value?)
      = if other = cell then some value else (script.node? other).bind (·.value?) := by
  obtain ⟨node, hn, hvalue⟩ := isCell_iff.1 (mem_liveBindings.1 hc).2
  have hset : (node.setValue value).2
      = { node with properties := Keyed.insert node.properties cellName value } := by
    rw [Node.setValue, h.cells cell hc node hn]
  rw [setCell, hn, node?_modifyNode script _ fun n => n.setValue_id value]
  split
  · rename_i heq
    rw [heq, hn, Option.map_some, hset, Option.bind_some, Node.value?]
    refine (if_pos hvalue).trans ?_
    rw [Keyed.get?_insert, if_pos rfl]
  · rfl

/-- A slot is written, and before it all slots were written up to the first. -/
theorem linkValue?_setLinkValue (h : script.Takes ref value) {slot : Nat}
    (held : slot = 0 ∨ script.linkValue? ref 0 = some value) :
    (script.setLinkValue ref slot value).2.linkValue? ref 0 = some value := by
  have hsame := liveBindings_of_skeleton (script.setLinkValue_skeleton ref slot value)
  rw [linkValue?, hsame]
  rcases hl : script.liveBindings ref with _ | ⟨first, rest⟩
  · rw [setLinkValue, hl]
    by_cases hslot : slot = 0
    · obtain ⟨link, hlink⟩ := Option.isSome_iff_exists.1 h.link
      dsimp only
      rw [if_pos rfl, if_pos ⟨hslot, h.link⟩, link?_modifyLink, if_pos rfl, hlink]
      rfl
    · have hread := held.resolve_left hslot
      rw [linkValue?, hl] at hread
      dsimp only at hread ⊢
      rw [if_neg (show ¬ (slot = 0 ∧ (script.link? ref).isSome = true) from fun h => hslot h.1)]
      exact hread
  · have hread : slot ≠ 0 → (script.node? first).bind (·.value?) = some value := by
      intro hslot
      have hread := held.resolve_left hslot
      rw [linkValue?, hl] at hread
      exact hread
    rw [setLinkValue, hl]
    dsimp only
    rcases hcell : (first :: rest)[slot]? with _ | cell
    · refine hread ?_
      rintro rfl
      cases hcell
    · have hmem : cell ∈ script.liveBindings ref := hl ▸ List.mem_of_getElem? hcell
      refine (h.value?_setCell hmem first).trans ?_
      split
      · rfl
      · rename_i hne
        refine hread ?_
        rintro rfl
        exact hne (Option.some.inj hcell)

theorem linkValue?_setSlots (h : script.Takes ref value) : ∀ slots,
    (setSlots ref value (slots + 1) script).2.linkValue? ref 0 = some value
  | 0 => h.linkValue?_setLinkValue (.inl rfl)
  | slots + 1 => by
    rw [setSlots]
    have hskeleton := setSlots_skeleton ref value (slots + 1) script
    exact (h.of_skeleton hskeleton).linkValue?_setLinkValue (.inr (h.linkValue?_setSlots slots))

end Takes

variable {script : Script β} {id : NodeId} {node : Node β} {name : String} {index : Nat}
  {value : Property}

/-- What is written under the name of a value link is read there. -/
theorem property?_setProperty (hn : script.node? id = some node)
    (hl : node.linkIndex? name = some index) (h : script.Takes ⟨id, index⟩ value) :
    (script.setProperty id name value).2.property? id name = some value := by
  have hslots := h.linkValue?_setSlots ((script.liveBindings ⟨id, index⟩).length - 1)
  have hcount : script.slotCount ⟨id, index⟩
      = (script.liveBindings ⟨id, index⟩).length - 1 + 1 := by
    rw [slotCount]
    omega
  rw [← hcount] at hslots
  obtain ⟨node', hn', hsame⟩ :=
    node?_of_skeleton (setSlots_skeleton ⟨id, index⟩ value _ script).symm hn
  rw [setProperty, hn]
  dsimp only
  rw [hl]
  dsimp only
  rw [property?, hn']
  dsimp only
  rw [Node.linkIndex?_of_skeleton hsame.symm, hl]
  exact hslots

/-- What is written under a name leaves the plain properties of other names. -/
theorem property?_setProperty_plain (hn : script.node? id = some node) {other : String}
    (hl : node.linkIndex? other = none) (hne : other ∉ [cellName, name]) :
    (script.setProperty id name value).2.property? id other = script.property? id other := by
  have hwritten : Written (fun _ => True) [cellName, name] script
      (script.setProperty id name value).2 :=
    .setProperty List.mem_cons_self (List.mem_cons_of_mem _ List.mem_cons_self) script
      (fun _ _ => trivial) value
  obtain ⟨node', hn', hsame⟩ := node?_of_skeleton hwritten.skeleton.symm hn
  have hplain := hwritten.plain id other hne
  rw [plain?, plain?, hn', hn, Option.bind_some, Option.bind_some] at hplain
  rw [property?, hn', property?, hn]
  dsimp only
  rw [Node.linkIndex?_of_skeleton hsame.symm, hl]
  exact hplain

end Script

/-! ## After a call -/

namespace Moment

variable [Behavior β] {m : Moment β} {node : Node β} {behavior : β}

/-- What the director does after a call is not read. -/
theorem readable_outcome (ht : m.target? = some node) (hb : node.behavior = some behavior)
    (goes : ¬ m.outcome.1.IsHalt) :
    (m.answered node behavior).2.script.Readable m.outcome.2.script := by
  cases settles ht hb with
  | unwound text uncaught verdict fate =>
    rw [fate] at goes
    exact absurd trivial goes
  | booked book kept back goes script =>
    rw [script]
    exact .modifyNode _ _ kept

end Moment

end FlowScript
