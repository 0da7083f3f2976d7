import FlowScript.Agent
import FlowScript.Proofs.Arena

/-!
# Bindings name cells

A binding is listed at the value link only, so a cell that goes has to be taken off every link that
lists it. Each lemma says what an operation makes of the links that are found (`link?_removeNode`
for the removal of a node). A node is placed with its value links as they are, though, and a link
that was read off another node is still bound as it was there. Every other edit keeps all bindings
at cells, and so does placing a node whose links are settled (`Grounded.edit_iff`); a tick does not
touch them.
-/

namespace FlowScript

variable {β : Type}

/-- A cell declares a type, and nothing else does. -/
def NodeBuilder.DeclaresCell (builder : NodeBuilder β) : Prop :=
  builder.kind = .value ↔ builder.valueType.isSome

theorem Node.isValueNode_iff {node : Node β} (h : node.shape.DeclaresCell) :
    node.isValueNode = true ↔ node.valueType.isSome = true := by
  rw [isValueNode, beq_iff_eq]
  exact h

/-- A description all of whose value links are new ones, bound to nothing. A host can describe other
nodes, too: a value link that it reads off a node which has been placed keeps its bindings. -/
structure NodeBuilder.Declared (builder : NodeBuilder β) : Prop where
  made : builder.Made
  unbound : ∀ link ∈ builder.links, link.bound = []

/-- The link lists cells, each once, and one at most if it takes one binding. -/
structure ValueLink.Settled (link : ValueLink) (script : Script β) : Prop where
  cells : ∀ id ∈ link.bound, script.isCell id = true
  nodup : link.bound.Nodup
  single : link.allowsMultiple = false → link.bound.length ≤ 1

theorem ValueLink.Settled.of_unbound {link : ValueLink} (h : link.bound = []) (script : Script β) :
    link.Settled script where
  cells := h ▸ List.forall_mem_nil _
  nodup := h ▸ List.nodup_nil
  single _ := h ▸ Nat.zero_le _

theorem NodeBuilder.Made.declaresCell {builder : NodeBuilder β} (h : builder.Made) :
    builder.DeclaresCell := by
  induction h with
  | action type behavior => exact iff_of_false nofun nofun
  | event type behavior => exact iff_of_false nofun nofun
  | value type initial behavior => exact iff_of_true rfl rfl
  | input name made ih => exact ih
  | output name made ih => exact ih
  | link link made ih => exact ih
  | property name value made ih => exact ih
  | override h made ih =>
    unfold NodeBuilder.override at h
    split at h <;> split at h <;> cases h <;> exact ih

theorem ValueLink.unbound_setDefault? : ∀ (links : List ValueLink) (name : String)
    (value : Property) {links' : List ValueLink}, setDefault? links name value = some links' →
      (∀ link ∈ links, link.bound = []) → ∀ link ∈ links', link.bound = []
  | [], _, _, _, h, _ => by simp [setDefault?] at h
  | link :: rest, name, value, links', h, hb => by
    rw [List.forall_mem_cons] at hb
    rw [setDefault?] at h
    split at h
    · obtain rfl := Option.some.inj h
      exact List.forall_mem_cons.2 hb
    · obtain ⟨rest', hrest, rfl⟩ := Option.map_eq_some_iff.1 h
      exact List.forall_mem_cons.2 ⟨hb.1, unbound_setDefault? rest name value hrest hb.2⟩

theorem NodeBuilder.unbound_withOverrides : ∀ (overrides : PropertySet)
    {builder builder' : NodeBuilder β}, builder.withOverrides overrides = .ok builder' →
      (∀ link ∈ builder.links, link.bound = []) → ∀ link ∈ builder'.links, link.bound = []
  | [], builder, builder', h, hb => by
    rw [withOverrides] at h
    obtain rfl := Except.ok.inj h
    exact hb
  | (name, value) :: rest, builder, builder', h, hb => by
    rw [withOverrides] at h
    obtain ⟨next, hn, h⟩ := bind_eq_ok.1 h
    refine unbound_withOverrides rest h ?_
    unfold override at hn
    split at hn
    · split at hn
      · obtain rfl := Except.ok.inj hn
        exact hb
      · cases hn
    · split at hn
      · rename_i links hl
        obtain rfl := Except.ok.inj hn
        exact ValueLink.unbound_setDefault? _ name value hl hb
      · obtain rfl := Except.ok.inj hn
        exact hb

theorem Standard.unbound_of_mem_catalog : ∀ e ∈ catalog, ∀ properties,
    ∀ link ∈ (e.2 properties).links, link.bound = [] := by
  have nothing : ∀ link ∈ ([] : List ValueLink), link.bound = [] := List.forall_mem_nil _
  have bound {link : ValueLink} (h : link.bound = []) : ∀ link' ∈ [link], link'.bound = [] :=
    List.forall_mem_singleton.2 h
  simp only [catalog, List.forall_mem_cons]
  refine ⟨fun _ => bound rfl, fun _ => ?forLoop, fun _ => bound rfl, fun _ => bound rfl,
    fun _ => bound rfl, fun _ => nothing, fun _ => nothing, fun _ => nothing, fun _ => nothing,
    fun _ => nothing, fun _ => bound rfl, fun _ => nothing, fun _ => nothing, fun _ => nothing,
    fun _ => nothing, fun _ => nothing, List.forall_mem_nil _⟩
  case forLoop =>
    exact List.forall_mem_cons.2 ⟨rfl, List.forall_mem_cons.2 ⟨rfl, bound rfl⟩⟩

/-- The descriptions that the registry of the standard nodes gives have new value links only. -/
theorem Standard.places_declared : registry.Places NodeBuilder.Declared := by
  intro type properties builder h
  refine ⟨places_made type properties builder h, ?_⟩
  rw [Registry.create] at h
  split at h
  · cases h
  · rename_i factory hf
    rcases Registry.mem_of_registerAll catalog _ (Keyed.mem_of_get? hf) with he | he
    · cases he
    · exact NodeBuilder.unbound_withOverrides properties h (unbound_of_mem_catalog _ he properties)

namespace Script

/-- The cells bound to a value link; none if there is no such link. -/
def bound (script : Script β) (ref : ValueLinkRef) : List NodeId :=
  (script.link? ref).elim [] (·.bound)

theorem bound_of_link? {script : Script β} {ref : ValueLinkRef} {link : ValueLink}
    (h : script.link? ref = some link) : script.bound ref = link.bound := by
  rw [bound, h, Option.elim_some]

theorem link?_of_mem_bound {script : Script β} {ref : ValueLinkRef} {id : NodeId}
    (h : id ∈ script.bound ref) : ∃ link, script.link? ref = some link ∧ id ∈ link.bound := by
  rw [bound] at h
  rcases hl : script.link? ref with _ | link
  · rw [hl] at h
    cases h
  · rw [hl] at h
    exact ⟨link, rfl, h⟩

/-- What is read through a link are the bindings that name cells. -/
theorem liveBindings_eq_filter (script : Script β) (ref : ValueLinkRef) :
    script.liveBindings ref = (script.bound ref).filter script.isCell := by
  unfold liveBindings bound
  rcases script.link? ref with _ | link <;> rfl

theorem mem_liveBindings {script : Script β} {ref : ValueLinkRef} {id : NodeId} :
    id ∈ script.liveBindings ref ↔ id ∈ script.bound ref ∧ script.isCell id = true := by
  rw [liveBindings_eq_filter, List.mem_filter]

/-! ## Which links are found -/

theorem link?_of_unwired {script script' : Script β} (h : script'.unwired = script.unwired) :
    script'.link? = script.link? := by
  have hu : ∀ s : Script β, s.unwired.link? = s.link? := by
    intro s
    funext ref
    have hn := s.node?_map (f := Node.unwired) (fun _ => rfl) ref.node
    simp only [link?]
    rw [unwired, hn]
    rcases s.node? ref.node with _ | node <;> rfl
  rw [← hu, h, hu]

theorem link?_skeleton (script : Script β) (ref : ValueLinkRef) :
    script.skeleton.link? ref = (script.link? ref).map .skeleton := by
  unfold link?
  rw [node?_skeleton]
  rcases script.node? ref.node with _ | node
  · rfl
  · exact List.getElem?_map

theorem link?_modifyLink (script : Script β) (ref ref' : ValueLinkRef)
    (f : ValueLink → ValueLink) :
    (script.modifyLink ref f).link? ref' =
      if ref' = ref then (script.link? ref').map f else script.link? ref' := by
  unfold modifyLink link?
  rw [node?_modifyNode script (·.modifyLink ref.index f) fun _ => rfl]
  obtain ⟨node, index⟩ := ref
  obtain ⟨node', index'⟩ := ref'
  rcases script.node? node' with _ | n
  · simp
  · by_cases hn : node' = node
    · by_cases hi : index' = index
      · simp [hn, hi, Node.modifyLink]
      · simp [hn, hi, Node.modifyLink, Ne.symm hi]
    · simp [hn]

theorem link?_append (script : Script β) (added : Node β) (ref : ValueLinkRef) :
    ({ script with nodes := script.nodes ++ [added] } : Script β).link? ref = script.link? ref
      ∨ ∃ link ∈ added.links,
        ({ script with nodes := script.nodes ++ [added] } : Script β).link? ref = some link := by
  simp only [link?]
  rw [node?_append]
  rcases script.node? ref.node with _ | n
  · by_cases hid : added.id = ref.node
    · rcases hl : added.links[ref.index]? with _ | link
      · exact .inl (by simp [hid, hl])
      · exact .inr ⟨link, List.mem_of_getElem? hl, by simp [hid, hl]⟩
    · exact .inl (by simp [hid])
  · exact .inl rfl

/-- A cell that is taken out leaves every value link, and its own links go with it. -/
theorem link?_removeNode {script : Script β} {id : NodeId} {removed : Node β × Script β}
    (h : script.removeNode id = .ok removed) :
    ∃ node, script.node? id = some node ∧ ∀ ref, removed.2.link? ref =
      if ref.node = id then none
      else (script.link? ref).map fun link =>
        if node.isValueNode then link.detach id else link := by
  obtain ⟨node, hn, hu⟩ := removeNode_unwired h
  obtain rfl := id_of_node? hn
  refine ⟨node, hn, fun ref => ?_⟩
  rw [link?_of_unwired hu]
  simp only [link?, node?_takeOut]
  by_cases href : ref.node = node.id
  · simp [href]
  · rcases script.node? ref.node with _ | n
    · simp
    · by_cases hv : node.isValueNode = true <;> simp [href, hv]

/-- Whether an id names a cell can be read off the members. -/
theorem isCell_eq (script : Script β) (id : NodeId) : script.isCell id =
    (script.members.find? (·.id = id)).any (·.shape.kind == .value) := by
  unfold isCell node? members
  rw [List.find?_map, Option.any_map]
  rfl

theorem isCell_of_members {script script' : Script β} (h : script'.members = script.members)
    (id : NodeId) : script'.isCell id = script.isCell id := by
  rw [isCell_eq, h, isCell_eq]

theorem isCell_iff {script : Script β} {id : NodeId} :
    script.isCell id = true ↔ ∃ node, script.node? id = some node ∧ node.isValueNode = true := by
  unfold isCell
  rw [Option.any_eq_true]

theorem isCell_removeNode {script : Script β} {id : NodeId} {removed : Node β × Script β}
    (h : script.removeNode id = .ok removed) {cell : NodeId} (hne : cell ≠ id) :
    removed.2.isCell cell = script.isCell cell := by
  rw [isCell_eq, isCell_eq, members_removeNode h, List.find?_filter]
  congr 2
  funext m
  by_cases hm : m.id = cell <;> simp [hm, hne]

theorem bound_attach {script : Script β} {ref : ValueLinkRef} {link : ValueLink}
    (h : script.link? ref = some link) (cell : NodeId) (ref' : ValueLinkRef) :
    (script.modifyLink ref (·.attach cell)).bound ref' =
      if ref' = ref then script.bound ref ++ [cell] else script.bound ref' := by
  simp only [bound, link?_modifyLink]
  split
  · rename_i href
    rw [href, h]
    rfl
  · rfl

/-! ## Placing a node -/

theorem isCell_withNode {script : Script β} {cell : NodeId} (h : script.isCell cell = true)
    (graph : GraphId) (builder : NodeBuilder β) :
    (script.withNode graph builder).isCell cell = true := by
  obtain ⟨node, hn, hv⟩ := isCell_iff.1 h
  have hfound := script.node?_withNode graph builder cell
  rw [hn, Option.some_or] at hfound
  exact isCell_iff.2 ⟨node, hfound, hv⟩

theorem link?_withNode (script : Script β) (graph : GraphId) (builder : NodeBuilder β)
    (ref : ValueLinkRef) : (script.withNode graph builder).link? ref = script.link? ref
      ∨ ∃ link ∈ builder.links, (script.withNode graph builder).link? ref = some link :=
  script.link?_append (builder.build ⟨script.nextNode⟩ graph) ref

theorem Filed.raw_lt {script : Script β} (h : script.Filed) {id : NodeId}
    (hid : id ∈ script.nodes.map (·.id)) : id.raw < script.nextNode := by
  obtain ⟨node, hn, rfl⟩ := List.mem_map.1 hid
  exact h.below node.member (List.mem_map_of_mem hn)

theorem Filed.node?_next {script : Script β} (h : script.Filed) :
    script.node? ⟨script.nextNode⟩ = none := by
  rcases hn : script.node? ⟨script.nextNode⟩ with _ | node
  · rfl
  · exact absurd (h.raw_lt (live_of_node? hn)) (Nat.lt_irrefl _)

/-- The value links of a new node are found as they were described, with what they list. -/
theorem Filed.link?_new {script : Script β} (h : script.Filed) (graph : GraphId)
    (builder : NodeBuilder β) {k : Nat} {link : ValueLink} (hk : builder.links[k]? = some link) :
    (script.withNode graph builder).link? ⟨⟨script.nextNode⟩, k⟩ = some link := by
  rw [link?, node?_withNode, h.node?_next, Option.none_or, if_pos rfl, Option.bind_some]
  exact hk

/-! ## Bindings -/

/-- Every binding names a cell, none is listed twice, and a link that takes one binding has no
more. -/
structure Grounded (script : Script β) : Prop where
  cells (ref : ValueLinkRef) : ∀ id ∈ script.bound ref, script.isCell id = true
  nodup (ref : ValueLinkRef) : (script.bound ref).Nodup
  single (ref : ValueLinkRef) (link : ValueLink) : script.link? ref = some link →
    link.allowsMultiple = false → link.bound.length ≤ 1

theorem grounded_iff {script : Script β} :
    script.Grounded ↔ ∀ ref link, script.link? ref = some link → link.Settled script := by
  constructor
  · intro h ref link hl
    have hcells := h.cells ref
    have hnodup := h.nodup ref
    rw [bound_of_link? hl] at hcells hnodup
    exact ⟨hcells, hnodup, h.single ref link hl⟩
  · refine fun h => ⟨fun ref id hid => ?_, fun ref => ?_, fun ref link hl => (h ref link hl).single⟩
    · obtain ⟨link, hl, hm⟩ := link?_of_mem_bound hid
      exact (h ref link hl).cells id hm
    · rcases hl : script.link? ref with _ | link
      · rw [bound, hl]
        exact List.nodup_nil
      · rw [bound_of_link? hl]
        exact (h ref link hl).nodup

namespace Grounded

variable {script script' : Script β}

theorem withRootName (name : String) : (withRootName name : Script β).Grounded where
  cells _ _ h := by cases h
  nodup _ := List.nodup_nil
  single _ _ h := by cases h

/-- Links may come to list less, as long as what they still list stays a cell. -/
theorem of_sublist (h : script.Grounded)
    (hl : ∀ ref link', script'.link? ref = some link' → ∃ link, script.link? ref = some link
      ∧ link'.shape = link.shape ∧ link'.bound.Sublist link.bound)
    (hc : ∀ ref, ∀ id ∈ script'.bound ref, script.isCell id = true → script'.isCell id = true) :
    script'.Grounded where
  cells ref id hid := by
    obtain ⟨link', hl', hm'⟩ := link?_of_mem_bound hid
    obtain ⟨link, hlink, -, hsub⟩ := hl ref link' hl'
    refine hc ref id hid (h.cells ref id ?_)
    rw [bound_of_link? hlink]
    exact hsub.subset hm'
  nodup ref := by
    rcases hl' : script'.link? ref with _ | link'
    · rw [bound, hl']
      exact List.nodup_nil
    · obtain ⟨link, hlink, -, hsub⟩ := hl ref link' hl'
      have hn := h.nodup ref
      rw [bound_of_link? hlink] at hn
      rw [bound_of_link? hl']
      exact hn.sublist hsub
  single ref link' hl' hm := by
    obtain ⟨link, hlink, hshape, hsub⟩ := hl ref link' hl'
    obtain ⟨-, hmult, -⟩ := ValueLink.of_shape_eq hshape
    exact Nat.le_trans hsub.length_le (h.single ref link hlink (hmult.symm.trans hm))

theorem of_link? (h : script.Grounded) (hl : script'.link? = script.link?)
    (hm : script'.members = script.members) : script'.Grounded := by
  refine h.of_sublist (fun ref link' hl' => ?_) fun _ id _ hc => ?_
  · rw [hl] at hl'
    exact ⟨link', hl', rfl, .refl _⟩
  · rwa [isCell_of_members hm]

theorem of_skeleton (h : script.Grounded) (hs : script'.skeleton = script.skeleton) :
    script'.Grounded := by
  refine h.of_sublist (fun ref link' hl' => ?_) fun _ id _ hc => ?_
  · have hmap := script'.link?_skeleton ref
    rw [hs, link?_skeleton, hl'] at hmap
    obtain ⟨link, hlink, hshape⟩ := Option.map_eq_some_iff.1 hmap
    have hbound : link.skeleton.bound = link'.skeleton.bound := by rw [hshape]
    have hdeclared : link.skeleton.shape = link'.skeleton.shape := by rw [hshape]
    refine ⟨link, hlink, hdeclared.symm, ?_⟩
    simp only [ValueLink.skeleton] at hbound
    exact hbound ▸ List.Sublist.refl _
  · rwa [isCell_of_members (members_of_skeleton hs)]

theorem removeNode (h : script.Grounded) {id : NodeId} {removed : Node β × Script β}
    (hr : script.removeNode id = .ok removed) : removed.2.Grounded := by
  obtain ⟨node, hn, hlink⟩ := link?_removeNode hr
  refine h.of_sublist (fun ref link' hl' => ?_) fun ref cell hcell hc => ?_
  · rw [hlink] at hl'
    split at hl'
    · cases hl'
    obtain ⟨link, hl, rfl⟩ := Option.map_eq_some_iff.1 hl'
    refine ⟨link, hl, ?_, ?_⟩
    · split <;> rfl
    · split
      · exact List.filter_sublist
      · exact .refl _
  · -- The node itself is listed no more: it was either taken off or never a cell.
    have hne : cell ≠ id := by
      rintro rfl
      obtain ⟨link', hl', hm'⟩ := link?_of_mem_bound hcell
      rw [hlink] at hl'
      split at hl'
      · cases hl'
      obtain ⟨link, hl, rfl⟩ := Option.map_eq_some_iff.1 hl'
      split at hm'
      · simp [ValueLink.detach] at hm'
      · rename_i hv
        obtain ⟨node', hn', hv'⟩ := isCell_iff.1 hc
        rw [hn] at hn'
        exact hv (Option.some.inj hn' ▸ hv')
    rwa [isCell_removeNode hr hne]

theorem withNode (h : script.Grounded) {graph : GraphId} {builder : NodeBuilder β}
    (settled : ∀ link ∈ builder.links, link.Settled (script.withNode graph builder)) :
    (script.withNode graph builder).Grounded := by
  refine grounded_iff.2 fun ref link hl => ?_
  rcases script.link?_withNode graph builder ref with heq | ⟨link', hm, heq⟩
  · have hold := grounded_iff.1 h ref link (heq.symm.trans hl)
    exact ⟨fun id hid => isCell_withNode (hold.cells id hid) graph builder, hold.nodup, hold.single⟩
  · obtain rfl := Option.some.inj (heq.symm.trans hl)
    exact settled link' hm

/-- In a script whose bindings name cells, a link has room if it takes any number of bindings or has
none. -/
theorem free_iff (h : script.Grounded) {ref : ValueLinkRef} {link : ValueLink}
    (hl : script.link? ref = some link) :
    link.bound.any script.containsNode = false ↔ link.bound = [] := by
  constructor
  · intro hfree
    rw [List.any_eq_false] at hfree
    rw [List.eq_nil_iff_forall_not_mem]
    intro id hid
    have hcell : script.isCell id = true := by
      refine h.cells ref id ?_
      rwa [bound_of_link? hl]
    obtain ⟨node, hn, -⟩ := isCell_iff.1 hcell
    refine hfree id hid ?_
    rw [containsNode, hn, Option.isSome_some]
  · intro hb
    rw [hb, List.any_nil]

theorem connectValue (h : script.Grounded)
    (hcell : ∀ id node, script.node? id = some node → (node.isValueNode = true ↔
      node.valueType.isSome = true))
    {ref : ValueLinkRef} {cell : NodeId} (hc : script.connectValue ref cell = .ok script') :
    script'.Grounded := by
  obtain ⟨⟨node, type, link, hn, ht, hlink, hnew, hroom, -⟩, rfl⟩ := connectValue_eq_ok.1 hc
  have hvalue : node.isValueNode = true := (hcell cell node hn).2 (by rw [ht, Option.isSome_some])
  have hfound : script.isCell cell = true := isCell_iff.2 ⟨node, hn, hvalue⟩
  have hmembers := script.members_modifyLink ref (f := (·.attach cell)) fun _ => rfl
  have hold : script.bound ref = link.bound := bound_of_link? hlink
  have hbound := bound_attach hlink cell
  refine ⟨fun ref' id hid => ?_, fun ref' => ?_, fun ref' link' hl' hmult => ?_⟩
  · rw [isCell_of_members hmembers]
    rw [hbound] at hid
    split at hid
    · rcases List.mem_append.1 hid with hid | hid
      · exact h.cells ref id hid
      · rw [List.mem_singleton.1 hid]
        exact hfound
    · exact h.cells ref' id hid
  · rw [hbound]
    split
    · refine List.nodup_append.2 ⟨h.nodup ref, List.pairwise_singleton _ cell, ?_⟩
      rintro id hid _ hid' rfl
      rw [List.mem_singleton.1 hid', hold] at hid
      exact hnew hid
    · exact h.nodup ref'
  · rw [link?_modifyLink] at hl'
    split at hl'
    · rename_i href
      obtain rfl := href
      rw [hlink] at hl'
      obtain rfl := Option.some.inj hl'
      have hsingle : link.allowsMultiple = false := hmult
      rcases hroom with hroom | hroom
      · rw [hsingle] at hroom
        cases hroom
      · have hnone := (h.free_iff hlink).1 hroom
        simp [ValueLink.attach, hnone]
    · exact h.single ref' link' hl' hmult

theorem disconnectValue (h : script.Grounded) (ref : ValueLinkRef) (cell : Option NodeId) :
    (script.disconnectValue ref cell).2.Grounded := by
  have hmembers := script.members_disconnectValue ref cell
  -- Whatever is unbound, the link lists less than before and is otherwise as it was.
  have unbinds (f : ValueLink → ValueLink) (hs : ∀ link, (f link).shape = link.shape)
      (hb : ∀ link, (f link).bound.Sublist link.bound) : (script.modifyLink ref f).Grounded := by
    refine h.of_sublist (fun ref' link' hl' => ?_) fun _ id _ hc => ?_
    · rw [link?_modifyLink] at hl'
      split at hl'
      · obtain ⟨link, hlink, rfl⟩ := Option.map_eq_some_iff.1 hl'
        exact ⟨link, hlink, hs link, hb link⟩
      · exact ⟨link', hl', rfl, .refl _⟩
    · rwa [isCell_of_members (script.members_modifyLink ref hs)]
  unfold Script.disconnectValue
  split
  · exact h
  split
  · exact unbinds _ (fun _ => rfl) fun _ => List.filter_sublist
  · exact unbinds _ (fun _ => rfl) fun _ => List.nil_sublist _

end Grounded

/-! ## Reachable scripts -/

/-- When a value link takes a cell. -/
def Admits (script : Script β) (ref : ValueLinkRef) (cell : NodeId) : Prop :=
  ∃ node link, script.node? cell = some node ∧ node.isValueNode = true
    ∧ script.link? ref = some link ∧ cell ∉ link.bound
    ∧ (link.allowsMultiple = true ∨ link.bound = [])
    ∧ (link.isChecked = true → node.valueType = some link.type)

theorem Grounded.liveBindings_eq {script : Script β} (h : script.Grounded) (ref : ValueLinkRef) :
    script.liveBindings ref = script.bound ref := by
  rw [liveBindings_eq_filter]
  exact List.filter_eq_self.2 (h.cells ref)

theorem Grounded.slotCount_eq {script : Script β} (h : script.Grounded) {ref : ValueLinkRef}
    {link : ValueLink} (hl : script.link? ref = some link) :
    script.slotCount ref = link.slotCount := by
  rw [slotCount, h.liveBindings_eq, bound_of_link? hl, ValueLink.slotCount]

/-- A slot reads the cell that is bound there. -/
theorem linkValue?_live {script : Script β} {ref : ValueLinkRef} {slot : Nat} {id : NodeId}
    (hid : (script.liveBindings ref)[slot]? = some id) :
    script.linkValue? ref slot = (script.node? id).bind (·.value?) := by
  unfold linkValue?
  split
  · rename_i hnone
    rw [hnone] at hid
    cases hid
  · rw [hid, Option.bind_some]

theorem Grounded.linkValue?_eq {script : Script β} (h : script.Grounded) {ref : ValueLinkRef}
    {slot : Nat} {id : NodeId} (hid : (script.bound ref)[slot]? = some id) :
    ∃ cell, script.node? id = some cell ∧ cell.isValueNode = true
      ∧ script.linkValue? ref slot = cell.value? := by
  obtain ⟨cell, hn, hv⟩ := isCell_iff.1 (h.cells ref id (List.mem_of_getElem? hid))
  refine ⟨cell, hn, hv, ?_⟩
  rw [linkValue?_live (by rwa [h.liveBindings_eq]), hn, Option.bind_some]

theorem Grounded.connectValue_iff {script : Script β} (h : script.Grounded)
    (hcell : ∀ id node, script.node? id = some node → (node.isValueNode = true ↔
      node.valueType.isSome = true)) (ref : ValueLinkRef) (cell : NodeId) :
    (∃ next, script.connectValue ref cell = .ok next) ↔ script.Admits ref cell := by
  constructor
  · rintro ⟨next, hc⟩
    obtain ⟨⟨node, type, link, hn, ht, hl, hnew, hroom, hfits⟩, -⟩ := connectValue_eq_ok.1 hc
    rw [h.free_iff hl] at hroom
    have hv : node.isValueNode = true := (hcell cell node hn).2 (by rw [ht, Option.isSome_some])
    refine ⟨node, link, hn, hv, hl, hnew, hroom, fun hchecked => ?_⟩
    rw [ht, hfits hchecked]
  · rintro ⟨node, link, hn, hv, hl, hnew, hroom, hfits⟩
    obtain ⟨type, ht⟩ := Option.isSome_iff_exists.1 ((hcell cell node hn).1 hv)
    rw [← h.free_iff hl] at hroom
    refine ⟨_, connectValue_eq_ok.2 ⟨⟨node, type, link, hn, ht, hl, hnew, hroom, ?_⟩, rfl⟩⟩
    intro hchecked
    rw [hfits hchecked] at ht
    exact Option.some.inj ht

/-- A node that the edit adds comes with value links that are settled. -/
def Settles (script : Script β) (change : Edit β) : Prop :=
  ∀ graph builder id next, change = .addNode graph builder →
    script.addNode graph builder = .ok (id, next) → ∀ link ∈ builder.links, link.Settled next

section edit

variable {script : Script β} (h : script.Grounded)
  (hcell : ∀ id node, script.node? id = some node → (node.isValueNode = true ↔
    node.valueType.isSome = true))

include h hcell

theorem Grounded.edit (change : Edit β) (settles : script.Settles change) :
    (script.edit change).Grounded := by
  generalize script.edit change = after, script.becomes_edit change = hb
  cases hb with
  | refused => exact h
  | addGraph done =>
    unfold Script.addGraph at done
    split at done
    · obtain rfl := Except.ok.inj done
      exact h.of_link? rfl rfl
    · cases done
  | renamed graph name => exact h.of_link? rfl rfl
  | removeGraph done =>
    exact removeGraph_keeps (fun hr hs => hs.removeNode hr) (fun _ _ hs => hs.of_link? rfl rfl)
      done h
  | addNode asked done =>
    have settled := settles _ _ _ _ asked done
    obtain ⟨-, rfl⟩ := addNode_eq_ok done
    exact h.withNode settled
  | removeNode done => exact h.removeNode done
  | rewired same => exact h.of_link? (link?_of_unwired same) (members_of_unwired same)
  | bound done => exact h.connectValue hcell done
  | unbound ref cell => exact h.disconnectValue ref cell
  | written asked same => exact h.of_skeleton same

/-- Only a node that is added with an unsettled link puts an end to it that bindings name cells. -/
theorem Grounded.edit_iff (hf : script.Filed) (change : Edit β) :
    (script.edit change).Grounded ↔ script.Settles change := by
  refine ⟨?_, h.edit hcell change⟩
  rintro hafter graph builder id next rfl hadd link hlink
  obtain ⟨k, hk⟩ := List.getElem?_of_mem hlink
  rw [Script.edit, hadd] at hafter
  obtain ⟨-, heq⟩ := addNode_eq_ok hadd
  obtain ⟨-, rfl⟩ := Prod.mk.inj heq
  exact grounded_iff.1 hafter _ link (hf.link?_new graph builder hk)

end edit

theorem settles_of_declared {script : Script β} {change : Edit β}
    (places : change.Places NodeBuilder.Declared) : script.Settles change := by
  rintro graph builder id next rfl - link hlink
  exact .of_unbound (places.unbound link hlink) next

variable [Behavior β] {script : Script β}

/-- In a reachable script a node is a cell exactly if it declares a type. -/
theorem Reachable.declaresCell (h : script.Reachable NodeBuilder.Made) {id : NodeId}
    {node : Node β} (hn : script.node? id = some node) :
    node.isValueNode = true ↔ node.valueType.isSome = true :=
  Node.isValueNode_iff
    (h.forall_members (fun _ hb => hb.declaresCell) node.member (node?_member hn))

theorem Reachable.grounded (h : script.Reachable NodeBuilder.Declared) : script.Grounded := by
  have both : script.Reachable NodeBuilder.Declared ∧ script.Grounded := by
    refine h.induction (P := fun s => s.Reachable NodeBuilder.Declared ∧ s.Grounded) ?_ ?_ ?_
    · exact fun name => ⟨.fresh name, .withRootName name⟩
    · exact fun _ change places hs => ⟨hs.1.edited change places, hs.2.edit
        (fun _ _ hn => (hs.1.mono fun _ hb => hb.made).declaresCell hn) change
        (settles_of_declared places)⟩
    · exact fun _ _ _ _ _ _ hu hs =>
        ⟨hs.1.stepped hu, hs.2.of_skeleton (skeleton_lasting.update hu)⟩
  exact both.2

/-- As long as nodes are placed with new value links, the bindings of a value link name cells, each
once, and a link that takes one binding has no more. So all bindings count: a link has as many slots
as its list says, and a slot reads the cell that is listed there. A cell is bound exactly if the
link admits it, and then it is listed last and nothing else changes. A further edit keeps bindings
at cells exactly if it does not add a node with a value link that is bound otherwise. -/
theorem Reachable.bindings (h : script.Reachable NodeBuilder.Declared) :
    script.Grounded
      ∧ (∀ ref, script.liveBindings ref = script.bound ref)
      ∧ (∀ ref link, script.link? ref = some link → script.slotCount ref = link.slotCount)
      ∧ (∀ ref slot id, (script.bound ref)[slot]? = some id → ∃ cell, script.node? id = some cell
        ∧ cell.isValueNode = true ∧ script.linkValue? ref slot = cell.value?)
      ∧ (∀ ref cell, (∃ next, script.connectValue ref cell = .ok next) ↔ script.Admits ref cell)
      ∧ (∀ ref cell next, script.connectValue ref cell = .ok next →
        next = script.modifyLink ref (·.attach cell)
          ∧ ∀ ref', next.bound ref' =
            if ref' = ref then script.bound ref ++ [cell] else script.bound ref')
      ∧ ∀ change : Edit β, (script.edit change).Grounded ↔ script.Settles change := by
  have hg := h.grounded
  have hcell {id : NodeId} {node : Node β} (hn : script.node? id = some node) :=
    (h.mono fun _ hb => hb.made).declaresCell hn
  refine ⟨hg, hg.liveBindings_eq, fun _ _ => hg.slotCount_eq, fun _ _ _ => hg.linkValue?_eq,
    hg.connectValue_iff fun _ _ hn => hcell hn, fun ref cell next hc => ?_,
    hg.edit_iff (fun _ _ hn => hcell hn) h.arena.filed⟩
  obtain ⟨⟨node, type, link, hn, ht, hl, -⟩, rfl⟩ := connectValue_eq_ok.1 hc
  exact ⟨rfl, bound_attach hl cell⟩

/-- How to come by a message with three parameters, the first of which is gone. -/
def posting : List (Edit Standard) :=
  [.addNode rootGraph Standard.sendMessageNode,
    .addNode rootGraph (Standard.cell "Integer" (.int 4)),
    .addNode rootGraph (Standard.cell "String" (.string "b")),
    .addNode rootGraph (Standard.cell "Boolean" (.bool true)),
    .connectValue ⟨⟨0⟩, 0⟩ ⟨3⟩, .connectValue ⟨⟨0⟩, 0⟩ ⟨1⟩, .connectValue ⟨⟨0⟩, 0⟩ ⟨2⟩,
    .removeNode ⟨3⟩]

/-- A node that sends a message with the values of two cells. -/
def postbox : Script Standard := posting.foldl Script.edit (withRootName "root")

theorem reachable_postbox : postbox.Reachable NodeBuilder.Declared := by
  have cell (name : String) (initial : Property) : (Standard.cell name initial).Declared :=
    ⟨.value _ _ _, List.forall_mem_nil _⟩
  have sender : Standard.sendMessageNode.Declared :=
    ⟨.link _ (.property _ _ (.output _ (.input _ (.action _ _)))), List.forall_mem_singleton.2 rfl⟩
  refine .edits (.fresh "root") fun change hc => ?_
  simp only [posting, List.mem_cons, List.not_mem_nil, or_false] at hc
  rcases hc with rfl | rfl | rfl | rfl | rfl | rfl | rfl | rfl
  · exact sender
  · exact cell _ _
  · exact cell _ _
  · exact cell _ _
  all_goals trivial

/-- The parameters that are left have moved up. -/
theorem bindings_of_postbox : postbox.bound ⟨⟨0⟩, 0⟩ = [⟨1⟩, ⟨2⟩]
    ∧ postbox.slotCount ⟨⟨0⟩, 0⟩ = 2
    ∧ ∃ cell, postbox.node? ⟨1⟩ = some cell ∧ cell.isValueNode = true
      ∧ postbox.linkValue? ⟨⟨0⟩, 0⟩ 0 = cell.value? := by
  have hbound : postbox.bound ⟨⟨0⟩, 0⟩ = [⟨1⟩, ⟨2⟩] := by decide +kernel
  obtain ⟨-, hlive, -, hslot, -⟩ := Reachable.bindings reachable_postbox
  refine ⟨hbound, ?_, hslot ⟨⟨0⟩, 0⟩ 0 ⟨1⟩ (by rw [hbound]; rfl)⟩
  rw [slotCount, hlive, hbound]
  rfl

/-- The parameters of the postbox, as a host reads them off the node. -/
def paramLink : ValueLink :=
  { ((ValueLink.input "Param" (.string "")).typeChecked false).allowMultiple true with
    bound := [⟨1⟩, ⟨2⟩] }

/-- A node with a copy of these parameters. -/
def copyNode : NodeBuilder Standard :=
  (NodeBuilder.action (coreType "Copy") .inert).link paramLink

/-- The postbox after its first cell has gone and the copy has been placed. -/
def copied : Script Standard :=
  [.removeNode ⟨1⟩, .addNode rootGraph copyNode].foldl Script.edit postbox

/-- The copy lists the cell that has gone: the link counts two slots, and only one can be read. -/
theorem not_grounded_of_copied : postbox.Reachable NodeBuilder.Made
    ∧ postbox.link? ⟨⟨0⟩, 0⟩ = some paramLink
    ∧ copied.Reachable NodeBuilder.Made
    ∧ copied.bound ⟨⟨4⟩, 0⟩ = [⟨1⟩, ⟨2⟩] ∧ (copied.node? ⟨1⟩).isNone
    ∧ copied.slotCount ⟨⟨4⟩, 0⟩ = 1 ∧ paramLink.slotCount = 2
    ∧ ¬ copied.Grounded := by
  have hr : postbox.Reachable NodeBuilder.Made := reachable_postbox.mono fun _ hb => hb.made
  have hbound : copied.bound ⟨⟨4⟩, 0⟩ = [⟨1⟩, ⟨2⟩] := by decide +kernel
  have hgone : copied.isCell ⟨1⟩ = false := by decide +kernel
  refine ⟨hr, rfl, .edits hr fun change hc => ?_, hbound, by decide +kernel, by decide +kernel, rfl,
    fun hg => ?_⟩
  · simp only [List.mem_cons, List.not_mem_nil, or_false] at hc
    rcases hc with rfl | rfl
    · trivial
    · exact .link _ (.action _ _)
  · have hcell := hg.cells ⟨⟨4⟩, 0⟩ ⟨1⟩ (by rw [hbound]; exact List.mem_cons_self)
    rw [hgone] at hcell
    cases hcell

end Script

end FlowScript
