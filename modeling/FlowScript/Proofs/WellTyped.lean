import FlowScript.Proofs.Typing

/-!
# Well-typed scripts

A standard node is well-typed if its values have the types of the description that its factory
gives, whatever they are (`Node.Of`). A script of such nodes stays one under every edit that writes
no value itself (`Sound.edit`).
-/

namespace FlowScript

/-- The value that a description gives to a name: the default of the value link of this name, or
else the plain property. -/
def NodeBuilder.declared? {β : Type} (builder : NodeBuilder β) (name : String) : Option Property :=
  match builder.links.find? (·.name == name) with
  | some link => some link.default
  | none => Keyed.get? builder.properties name

namespace Standard

/-- The behavior as it is before its first call. -/
def blank : Standard → Standard
  | forLoop _ => forLoop 0
  | delay _ => delay {}
  | behavior => behavior

/-- The behavior has no private state. -/
def isMemoryless : Standard → Bool
  | forLoop _ | delay _ => false
  | _ => true

theorem eq_of_blank {behavior start : Standard} (h : behavior.blank = start)
    (hm : start.isMemoryless = true) : behavior = start := by
  subst h
  cases behavior with
  | forLoop current | delay countdown => cases hm
  | _ => rfl

/-- Every authored name that the factory of the type declares has a value of the declared type. -/
def WellTyped (type : TypeId) (properties : PropertySet) : Prop :=
  ∀ factory, Keyed.get? registry.factories type = some factory → ∀ e ∈ properties, ∀ declared,
    (factory properties).declared? e.1 = some declared → e.2.type = declared.type

/-- The descriptions that the registry gives for well-typed values. -/
def Instance (builder : NodeBuilder Standard) : Prop :=
  ∃ type properties, WellTyped type properties ∧ registry.create type properties = .ok builder

end Standard

/-- A node is as described, up to the values, connections and bindings of its links, the values of
its properties and the private state of its behavior. -/
structure Node.Of (node : Node Standard) (described : NodeBuilder Standard) : Prop where
  shape : node.shape = described.shape
  defaults : node.links.map (·.type) = described.links.map (·.type)
  values : ∀ name value, Keyed.get? described.properties name = some value →
    ∃ value', Keyed.get? node.properties name = some value' ∧ value'.type = value.type
  behavior : ∀ behavior, node.behavior = some behavior → behavior.blank = described.behavior

/-- A node is of the catalog. -/
def Node.Fits (node : Node Standard) : Prop :=
  ∃ entry ∈ Standard.catalog, ∃ properties, node.Of (entry.2 properties)

/-- What the descriptions of the catalog have in common. -/
structure NodeBuilder.Standing (builder : NodeBuilder Standard) : Prop where
  blank : builder.behavior.blank = builder.behavior
  declares : builder.DeclaresCell
  /-- A cell starts with a value of the type that it declares. -/
  stocked : ∀ type, builder.valueType = some type →
    ∃ value, Keyed.get? builder.properties cellName = some value ∧ value.type = type
  /-- A cell has no value links. -/
  apart : builder.valueType.isSome = true → builder.links = []

theorem Standard.standing_of_mem_catalog : ∀ e ∈ catalog, ∀ properties,
    (e.2 properties).Standing := by
  have standing {builder : NodeBuilder Standard} (hb : builder.behavior.blank = builder.behavior)
      (hk : (builder.kind == .value) = false) (ht : builder.valueType = none) :
      builder.Standing := by
    refine ⟨hb, ?_, fun type h => ?_, fun h => ?_⟩
    · exact iff_of_false (beq_eq_false_iff_ne.1 hk) (by rw [ht]; nofun)
    · rw [ht] at h
      cases h
    · rw [ht] at h
      cases h
  have cell (name : String) (initial : Property) : (Standard.cell name initial).Standing := by
    refine ⟨rfl, iff_of_true rfl rfl, fun type h => ⟨initial, rfl, Option.some.inj h⟩, fun _ => rfl⟩
  simp only [catalog, List.forall_mem_cons]
  exact ⟨fun _ => standing rfl rfl rfl, fun _ => standing rfl rfl rfl,
    fun _ => standing rfl rfl rfl, fun _ => standing rfl rfl rfl,
    fun _ => standing rfl rfl rfl, fun _ => standing rfl rfl rfl,
    fun _ => standing rfl rfl rfl, fun _ => standing rfl rfl rfl,
    fun _ => standing rfl rfl rfl, fun _ => standing rfl rfl rfl,
    fun _ => standing rfl rfl rfl, fun _ => cell _ _, fun _ => cell _ _, fun _ => cell _ _,
    fun _ => cell _ _, fun _ => cell _ _, List.forall_mem_nil _⟩

/-! ## Instances fit -/

theorem Node.shape_skeleton {β : Type} (node : Node β) : node.skeleton.shape = node.shape := by
  simp only [Node.shape, Node.skeleton, List.map_map]
  rfl

namespace Node.Of

variable {node node' : Node Standard} {described : NodeBuilder Standard}

theorem congr (h : node.Of described) (hs : node'.shape = node.shape)
    (hd : node'.links.map (·.type) = node.links.map (·.type))
    (hp : node'.properties = node.properties) (hb : node'.behavior = node.behavior) :
    node'.Of described where
  shape := hs.trans h.shape
  defaults := hd.trans h.defaults
  values := hp ▸ h.values
  behavior := hb ▸ h.behavior

theorem of_typing (h : node.Of described) (ht : node'.typing = node.typing) :
    node'.Of described := by
  simp only [Node.typing, Typing.mk.injEq] at ht
  obtain ⟨hskeleton, hdefaults, hvalues, hbehavior⟩ := ht
  refine ⟨?_, hdefaults.trans h.defaults, fun name value hv => ?_, fun b hb => ?_⟩
  · rw [← node'.shape_skeleton, hskeleton, node.shape_skeleton, h.shape]
  · obtain ⟨old, hold, htype⟩ := h.values name value hv
    have hget := congrArg (Keyed.get? · name) hvalues
    simp only [Keyed.get?_map Property.type, hold, Option.map_some] at hget
    obtain ⟨new, hnew, hsame⟩ := Option.map_eq_some_iff.1 hget
    exact ⟨new, hnew, hsame.trans htype⟩
  · exact h.behavior b (hbehavior ▸ hb)

/-- A node stays as described if a behavior of its description is put in place and pulses change. -/
theorem booked (h : node.Of described) (hk : node.Booked node')
    (hb : ∀ behavior, node'.behavior = some behavior → behavior.blank = described.behavior) :
    node'.Of described := by
  have hshape : node'.shape = node.shape := by
    rw [← node'.shape_skeleton, hk.skeleton, node.shape_skeleton]
  obtain ⟨behavior, outputs, rfl, -⟩ := hk
  exact ⟨hshape.trans h.shape, h.defaults, h.values, hb⟩

end Node.Of

/-- Setting the default of a link to a value of its declared type changes no type. -/
theorem ValueLink.setDefault?_types {name : String} {value : Property} :
    ∀ {links declared links' : List ValueLink}, links.map shape = declared.map shape →
      links.map (·.type) = declared.map (·.type) →
      (∀ link, declared.find? (·.name == name) = some link → value.type = link.type) →
      setDefault? links name value = some links' →
      links'.map shape = declared.map shape ∧ links'.map (·.type) = declared.map (·.type)
  | [], _, _, _, _, _, h => by simp [setDefault?] at h
  | link :: links, [], _, hs, _, _, _ => by simp at hs
  | link :: links, d :: declared, links', hs, ht, hv, h => by
    simp only [List.map_cons, List.cons.injEq] at hs ht
    have hname := (of_shape_eq hs.1).1
    rw [setDefault?] at h
    split at h <;> rename_i hn
    · obtain rfl := Option.some.inj h
      have hd : value.type = d.type := hv d (by simp [← hname, hn])
      simp only [List.map_cons, List.cons.injEq]
      exact ⟨⟨hs.1, hs.2⟩, hd, ht.2⟩
    · obtain ⟨rest, hrest, rfl⟩ := Option.map_eq_some_iff.1 h
      have hne : d.name ≠ name := hname ▸ hn
      have hlater : ∀ l, declared.find? (·.name == name) = some l → value.type = l.type :=
        fun l hl => hv l (by simp [hne, hl])
      obtain ⟨hshape, htype⟩ := setDefault?_types hs.2 ht.2 hlater hrest
      simp only [List.map_cons, List.cons.injEq]
      exact ⟨⟨hs.1, hshape⟩, ht.1, htype⟩

theorem ValueLink.find?_of_setDefault?_none {name : String} {value : Property} :
    ∀ {links : List ValueLink}, setDefault? links name value = none →
      links.find? (·.name == name) = none
  | [], _ => rfl
  | link :: links, h => by
    rw [setDefault?] at h
    split at h
    · cases h
    · rename_i hn
      rw [Option.map_eq_none_iff] at h
      simp [hn, find?_of_setDefault?_none h]

theorem ValueLink.find?_of_shape {name : String} : ∀ {links declared : List ValueLink},
    links.map shape = declared.map shape → links.find? (·.name == name) = none →
      declared.find? (·.name == name) = none
  | [], [], _, _ => rfl
  | link :: links, [], hs, _ => by simp at hs
  | [], d :: declared, hs, _ => by simp at hs
  | link :: links, d :: declared, hs, h => by
    simp only [List.map_cons, List.cons.injEq] at hs
    have hname := (of_shape_eq hs.1).1
    by_cases hn : link.name = name
    · simp [hn] at h
    · have hne : d.name ≠ name := hname ▸ hn
      rw [List.find?_cons_of_neg (by simpa using hn)] at h
      rw [List.find?_cons_of_neg (by simpa using hne)]
      exact find?_of_shape hs.2 h

namespace Node.Of

variable {builder builder' described : NodeBuilder Standard} {id : NodeId} {graph : GraphId}

theorem self (hb : described.behavior.blank = described.behavior) :
    (described.build id graph).Of described where
  shape := rfl
  defaults := rfl
  values _ value h := ⟨value, h, rfl⟩
  behavior b h := by
    rw [← Option.some.inj h]
    exact hb

theorem property (h : (builder.build id graph).Of described) {name : String} {value : Property}
    (hv : ∀ declared, Keyed.get? described.properties name = some declared →
      value.type = declared.type) :
    ((builder.property name value).build id graph).Of described where
  shape := h.shape
  defaults := h.defaults
  behavior := h.behavior
  values name' declared hd := by
    simp only [NodeBuilder.build, NodeBuilder.property, Keyed.get?_insert]
    split
    · rename_i heq
      subst heq
      exact ⟨value, rfl, hv declared hd⟩
    · exact h.values name' declared hd

theorem override (hst : described.Standing) (h : (builder.build id graph).Of described)
    {name : String} {value : Property}
    (hv : ∀ declared, described.declared? name = some declared → value.type = declared.type)
    (ho : builder.override name value = .ok builder') :
    (builder'.build id graph).Of described := by
  have hvalueType : builder.valueType = described.valueType :=
    (congrArg NodeBuilder.valueType h.shape :)
  have hlinks : builder.links.map ValueLink.shape = described.links.map ValueLink.shape :=
    (congrArg NodeBuilder.links h.shape :)
  unfold NodeBuilder.override at ho
  split at ho
  · rename_i declared htype hname
    obtain rfl : name = cellName := by simpa using hname
    split at ho
    · rename_i stored hstored
      obtain rfl := Except.ok.inj ho
      refine h.property fun initial hinitial => ?_
      obtain ⟨value', hvalue', hhas⟩ := hst.stocked declared (hvalueType ▸ htype)
      obtain rfl := Option.some.inj (hvalue'.symm.trans hinitial)
      rw [hhas]
      exact Property.type_of_coerce hstored
    · cases ho
  · split at ho
    · rename_i links hset
      obtain rfl := Except.ok.inj ho
      obtain ⟨hshape, htypes⟩ := ValueLink.setDefault?_types hlinks h.defaults
        (fun link hl => hv link.default (by rw [NodeBuilder.declared?, hl])) hset
      refine ⟨?_, htypes, h.values, h.behavior⟩
      rw [← h.shape]
      simp only [Node.shape, NodeBuilder.build, hshape, hlinks]
    · rename_i hset
      obtain rfl := Except.ok.inj ho
      have hnone := ValueLink.find?_of_shape hlinks (ValueLink.find?_of_setDefault?_none hset)
      exact h.property fun declared hd => hv declared (by rw [NodeBuilder.declared?, hnone, hd])

theorem withOverrides (hst : described.Standing) : ∀ (overrides : PropertySet)
    {builder builder' : NodeBuilder Standard}, (builder.build id graph).Of described →
      (∀ e ∈ overrides, ∀ declared, described.declared? e.1 = some declared →
        e.2.type = declared.type) →
      builder.withOverrides overrides = .ok builder' → (builder'.build id graph).Of described
  | [], builder, builder', h, _, ho => by
    rw [NodeBuilder.withOverrides] at ho
    obtain rfl := Except.ok.inj ho
    exact h
  | (name, value) :: rest, builder, builder', h, hv, ho => by
    rw [List.forall_mem_cons] at hv
    rw [NodeBuilder.withOverrides] at ho
    obtain ⟨next, hn, ho⟩ := bind_eq_ok.1 ho
    exact withOverrides hst rest (override hst h hv.1 hn) hv.2 ho

end Node.Of

namespace Standard

theorem mem_catalog_of_get? {type : TypeId} {factory : Factory Standard}
    (h : Keyed.get? registry.factories type = some factory) : (type, factory) ∈ catalog := by
  rcases Registry.mem_of_registerAll catalog _ (Keyed.mem_of_get? h) with he | he
  · cases he
  · exact he

theorem create_eq_ok {type : TypeId} {properties : PropertySet} {builder : NodeBuilder Standard}
    (h : registry.create type properties = .ok builder) : ∃ factory,
      Keyed.get? registry.factories type = some factory
        ∧ (factory properties).withOverrides properties = .ok builder := by
  rw [Registry.create] at h
  split at h
  · cases h
  · rename_i factory hf
    exact ⟨factory, hf, h⟩

/-- What the registry gives for well-typed values is a node of the catalog. -/
theorem Instance.fits {builder : NodeBuilder Standard} (h : Instance builder) (id : NodeId)
    (graph : GraphId) : (builder.build id graph).Fits := by
  obtain ⟨type, properties, typed, hc⟩ := h
  obtain ⟨factory, hf, ho⟩ := create_eq_ok hc
  have hmem := mem_catalog_of_get? hf
  have hst := standing_of_mem_catalog _ hmem properties
  exact ⟨_, hmem, properties,
    Node.Of.withOverrides hst properties (.self hst.blank) (typed factory hf) ho⟩

theorem Instance.declared {builder : NodeBuilder Standard} (h : Instance builder) :
    builder.Declared := by
  obtain ⟨type, properties, -, hc⟩ := h
  exact places_declared type properties builder hc

end Standard

/-! ## Edits -/

namespace Script

section kept

variable {β : Type} {script script' : Script β}

/-- Every node that is left is as it was but for connections and bindings. -/
def Keeps (script script' : Script β) : Prop :=
  ∀ id node', script'.node? id = some node' →
    ∃ node, script.node? id = some node ∧ node'.cleared = node.cleared

theorem Keeps.refl (script : Script β) : script.Keeps script := fun _ node hn => ⟨node, hn, rfl⟩

theorem Keeps.trans {first second third : Script β} (h : first.Keeps second)
    (h' : second.Keeps third) : first.Keeps third := by
  intro id node' hn'
  obtain ⟨between, hb, hlater⟩ := h' id node' hn'
  obtain ⟨node, hn, hearlier⟩ := h id between hb
  exact ⟨node, hn, hlater.trans hearlier⟩

theorem Keeps.of_nodes {g : Node β → Node β} (hid : ∀ n, (g n).id = n.id)
    (hg : ∀ n, (g n).cleared = n.cleared) (h : script'.nodes.map g = script.nodes.map g) :
    script.Keeps script' := by
  intro id node' hn'
  have hfind : ∀ s : Script β, (s.node? id).map g = (s.nodes.map g).find? (·.id = id) := by
    intro s
    rw [List.find?_map]
    simp only [node?, Function.comp_def, hid]
  have hsame := hfind script'
  rw [h, ← hfind, hn'] at hsame
  obtain ⟨node, hn, heq⟩ := Option.map_eq_some_iff.1 hsame.symm
  exact ⟨node, hn, by rw [← hg node', ← heq, hg]⟩

theorem Keeps.of_unwired (h : script'.unwired = script.unwired) : script.Keeps script' := by
  refine .of_nodes (g := Node.unwired) (fun _ => rfl) (fun n => ?_) (congrArg Script.nodes h)
  simp only [Node.cleared, Node.unwired, List.map_map]
  rfl

theorem Keeps.modifyLink (script : Script β) (ref : ValueLinkRef) {f : ValueLink → ValueLink}
    (hf : ∀ link, (f link).clear = link.clear) : script.Keeps (script.modifyLink ref f) := by
  refine .of_nodes (g := Node.cleared) (fun _ => rfl) (fun n => ?_) ?_
  · simp only [Node.cleared, List.map_map]
    rfl
  · refine script.map_nodes_modifyNode ref.node Node.cleared fun n => ?_
    simp only [Node.cleared, Node.modifyLink, map_modify _ hf]

theorem Keeps.removeNode {id : NodeId} {removed : Node β × Script β}
    (h : script.removeNode id = .ok removed) : script.Keeps removed.2 := by
  obtain ⟨node, hn, hu⟩ := removeNode_unwired h
  intro id' node' hn'
  obtain ⟨off, hoff, hsame⟩ := Keeps.of_unwired hu id' node' hn'
  rw [node?_takeOut] at hoff
  split at hoff
  · cases hoff
  obtain ⟨old, hold, rfl⟩ := Option.map_eq_some_iff.1 hoff
  refine ⟨old, hold, hsame.trans ?_⟩
  split
  · simp only [Node.cleared, List.map_map]
    rfl
  · rfl

theorem Keeps.disconnectValue (script : Script β) (ref : ValueLinkRef) (cell : Option NodeId) :
    script.Keeps (script.disconnectValue ref cell).2 := by
  unfold Script.disconnectValue
  split
  · exact fun id node hn => ⟨node, hn, rfl⟩
  split
  · exact .modifyLink script ref fun _ => rfl
  · exact .modifyLink script ref fun _ => rfl

/-- An edit that writes no value itself keeps the nodes that it leaves, or creates one besides
them. -/
theorem keeps_edit (script : Script β) {change : Edit β} (hw : ¬ change.Writes) :
    script.Keeps (script.edit change) ∨ ∃ graph builder added, change = .addNode graph builder
      ∧ script.addNode graph builder = .ok added ∧ script.edit change = added.2 := by
  have same : ∀ {before after : Script β}, after.nodes = before.nodes → before.Keeps after :=
    fun h => .of_nodes (g := id) (fun _ => rfl) (fun _ => rfl) (congrArg _ h)
  generalize script.edit change = after, script.becomes_edit change = hb
  cases hb with
  | refused => exact .inl (.refl script)
  | addGraph done =>
    unfold Script.addGraph at done
    split at done
    · obtain rfl := Except.ok.inj done
      exact .inl (same rfl)
    · cases done
  | renamed graph name => exact .inl (same rfl)
  | removeGraph done =>
    exact .inl (removeGraph_keeps (fun hr hs => hs.trans (.removeNode hr))
      (fun _ _ hs => hs.trans (same rfl)) done (.refl script))
  | addNode asked done => exact .inr ⟨_, _, _, asked, done, rfl⟩
  | removeNode done => exact .inl (.removeNode done)
  | rewired same => exact .inl (.of_unwired same)
  | bound done =>
    obtain ⟨-, rfl⟩ := connectValue_eq_ok.1 done
    exact .inl (.modifyLink script _ fun _ => rfl)
  | unbound ref cell => exact .inl (.disconnectValue script ref cell)
  | written asked => exact absurd asked hw

/-- A link that checks types stays matched if it loses bindings and nothing else. -/
theorem Matched.of_keeps (hm : script.Matched) (hk : script.Keeps script')
    (hl : ∀ ref link', script'.link? ref = some link' → ∃ link, script.link? ref = some link
      ∧ link'.clear = link.clear ∧ link'.bound ⊆ link.bound) : script'.Matched := by
  intro ref link' hl' hchecked id hid cell' hc'
  obtain ⟨link, hlink, hclear, hsub⟩ := hl ref link' hl'
  obtain ⟨cell, hc, hsame⟩ := hk id cell' hc'
  simp only [ValueLink.clear, ValueLink.mk.injEq] at hclear
  obtain ⟨-, -, -, hcheck, hdefault, -⟩ := hclear
  have hvalueType : cell'.cleared.valueType = cell.cleared.valueType := by rw [hsame]
  have hcell := hm ref link hlink (hcheck ▸ hchecked) id (hsub hid) cell hc
  rw [ValueLink.type, hdefault]
  exact hvalueType.trans hcell

theorem Matched.of_unwired (hm : script.Matched) (hu : script'.unwired = script.unwired) :
    script'.Matched := by
  refine hm.of_keeps (.of_unwired hu) fun ref link hl => ?_
  rw [link?_of_unwired hu] at hl
  exact ⟨link, hl, rfl, fun _ hid => hid⟩

theorem Matched.connectValue (hm : script.Matched) {ref : ValueLinkRef} {cell : NodeId}
    (hc : script.connectValue ref cell = .ok script') : script'.Matched := by
  obtain ⟨⟨target, type, link, hn, ht, hl, -, -, hfits⟩, rfl⟩ := connectValue_eq_ok.1 hc
  have hk := Keeps.modifyLink script ref (f := (·.attach cell)) fun _ => rfl
  intro ref' link' hl' hchecked id hid cell' hc'
  obtain ⟨old, hold, hsame⟩ := hk id cell' hc'
  have hvalueType : cell'.cleared.valueType = old.cleared.valueType := by rw [hsame]
  rw [link?_modifyLink] at hl'
  split at hl'
  · rename_i href
    obtain rfl := href
    rw [hl] at hl'
    obtain rfl := Option.some.inj hl'
    refine hvalueType.trans ?_
    rcases List.mem_append.1 hid with hid | hid
    · exact hm ref' link hl hchecked id hid old hold
    · obtain rfl := List.mem_singleton.1 hid
      rw [hn] at hold
      rw [← Option.some.inj hold]
      exact ht.trans (congrArg some (hfits hchecked).symm)
  · exact hvalueType.trans (hm ref' link' hl' hchecked id hid old hold)

theorem Matched.of_nodes (hm : script.Matched) (hn : script'.nodes = script.nodes) :
    script'.Matched := by
  have hfind : script'.node? = script.node? := by
    funext id
    simp only [node?, hn]
  have hlink : script'.link? = script.link? := by
    funext ref
    simp only [link?, hfind]
  unfold Matched
  rw [hfind, hlink]
  exact hm

theorem Matched.removeNode (hm : script.Matched) {id : NodeId} {removed : Node β × Script β}
    (hr : script.removeNode id = .ok removed) : removed.2.Matched := by
  refine hm.of_keeps (Keeps.removeNode hr) fun ref link' hl' => ?_
  obtain ⟨node, -, hlink⟩ := link?_removeNode hr
  rw [hlink] at hl'
  split at hl'
  · cases hl'
  obtain ⟨link, hl, rfl⟩ := Option.map_eq_some_iff.1 hl'
  refine ⟨link, hl, ?_, ?_⟩
  · split <;> rfl
  · split
    · exact fun _ hid => (List.mem_filter.1 hid).1
    · exact fun _ hid => hid

/-- A node that is added binds nothing, and what is bound already is there before it. -/
theorem Matched.addNode (hm : script.Matched) (hg : script.Grounded) {graph : GraphId}
    {builder : NodeBuilder β} (hb : ∀ link ∈ builder.links, link.bound = [])
    {added : NodeId × Script β} (ha : script.addNode graph builder = .ok added) :
    added.2.Matched := by
  obtain ⟨-, rfl⟩ := addNode_eq_ok ha
  intro ref link hl hchecked id hid cell hc
  rcases script.link?_append (builder.build ⟨script.nextNode⟩ graph) ref with heq | ⟨new, hnew, heq⟩
  · have hl' : script.link? ref = some link := heq.symm.trans hl
    have hbound : id ∈ script.bound ref := by
      rwa [bound_of_link? hl']
    obtain ⟨old, hold, -⟩ := isCell_iff.1 (hg.cells ref id hbound)
    have hfound := script.node?_withNode graph builder id
    rw [hold, Option.some_or] at hfound
    rw [← Option.some.inj (hfound.symm.trans hc)]
    exact hm ref link hl' hchecked id hid old hold
  · obtain rfl := Option.some.inj (heq.symm.trans hl)
    rw [hb new hnew] at hid
    cases hid

theorem Matched.disconnectValue (hm : script.Matched) (ref : ValueLinkRef)
    (cell : Option NodeId) : (script.disconnectValue ref cell).2.Matched := by
  -- Whatever is unbound, links lose bindings and nothing else.
  have unbinds (f : ValueLink → ValueLink) (hf : ∀ link, (f link).clear = link.clear)
      (hb : ∀ link, (f link).bound ⊆ link.bound) : (script.modifyLink ref f).Matched := by
    refine hm.of_keeps (Keeps.modifyLink script ref hf) fun ref' link' hl' => ?_
    rw [link?_modifyLink] at hl'
    split at hl'
    · obtain ⟨link, hl, rfl⟩ := Option.map_eq_some_iff.1 hl'
      exact ⟨link, hl, hf link, hb link⟩
    · exact ⟨link', hl', rfl, fun _ hid => hid⟩
  unfold Script.disconnectValue
  split
  · exact hm
  split
  · exact unbinds _ (fun _ => rfl) fun _ _ hid => (List.mem_filter.1 hid).1
  · exact unbinds _ (fun _ => rfl) fun _ => List.nil_subset _

/-- An edit that writes no value itself keeps the types of what is bound. -/
theorem Matched.edit (hm : script.Matched) (hg : script.Grounded) {change : Edit β}
    (hw : ¬ change.Writes) (places : change.Places NodeBuilder.Declared) :
    (script.edit change).Matched := by
  generalize script.edit change = after, script.becomes_edit change = hb
  cases hb with
  | refused => exact hm
  | addGraph done =>
    unfold Script.addGraph at done
    split at done
    · obtain rfl := Except.ok.inj done
      exact hm.of_nodes rfl
    · cases done
  | renamed graph name => exact hm.of_nodes rfl
  | removeGraph done =>
    exact removeGraph_keeps (fun hr hs => hs.removeNode hr) (fun _ _ hs => hs.of_nodes rfl) done hm
  | addNode asked done =>
    subst asked
    exact hm.addNode hg places.unbound done
  | removeNode done => exact hm.removeNode done
  | rewired same => exact hm.of_unwired same
  | bound done => exact hm.connectValue done
  | unbound ref cell => exact hm.disconnectValue ref cell
  | written asked same => exact absurd asked hw

end kept

/-- Every node is of the catalog with values of the right types, and what is bound to a link that
checks types has the type of its default. -/
structure Sound (script : Script Standard) : Prop where
  grounded : script.Grounded
  fits : ∀ id node, script.node? id = some node → node.Fits
  matched : script.Matched

end Script

theorem Node.shape_cleared {β : Type} (node : Node β) : node.cleared.shape = node.shape := by
  simp only [shape, cleared, List.map_map]
  rfl

theorem Node.Fits.of_cleared {node node' : Node Standard} (hf : node.Fits)
    (h : node'.cleared = node.cleared) : node'.Fits := by
  have hdefaults : ∀ n : Node Standard, n.cleared.links.map (·.type) = n.links.map (·.type) := by
    intro n
    simp only [Node.cleared, List.map_map]
    rfl
  obtain ⟨entry, he, properties, hof⟩ := hf
  have hproperties : node'.cleared.properties = node.cleared.properties := by rw [h]
  have hbehavior : node'.cleared.behavior = node.cleared.behavior := by rw [h]
  refine ⟨entry, he, properties, hof.congr ?_ ?_ hproperties hbehavior⟩
  · rw [← node'.shape_cleared, h, node.shape_cleared]
  · rw [← hdefaults, h, hdefaults]

namespace Script.Sound

variable {script script' : Script Standard}

theorem withRootName (name : String) : (withRootName name : Script Standard).Sound where
  grounded := .withRootName name
  fits _ _ h := by cases h
  matched _ _ h := by cases h

theorem declaresCell (h : script.Sound) {id : NodeId} {node : Node Standard}
    (hn : script.node? id = some node) :
    node.isValueNode = true ↔ node.valueType.isSome = true := by
  obtain ⟨entry, he, properties, hof⟩ := h.fits id node hn
  have declares := (Standard.standing_of_mem_catalog entry he properties).declares
  exact Node.isValueNode_iff (hof.shape ▸ declares)

theorem stocked (h : script.Sound) : script.Stocked := by
  intro id node hn type htype
  obtain ⟨entry, he, properties, hof⟩ := h.fits id node hn
  have hvalueType : node.valueType = (entry.2 properties).valueType :=
    (congrArg NodeBuilder.valueType hof.shape :)
  obtain ⟨initial, hinitial, hdeclared⟩ :=
    (Standard.standing_of_mem_catalog entry he properties).stocked type (hvalueType ▸ htype)
  obtain ⟨value, hvalue, hsame⟩ := hof.values cellName initial hinitial
  exact ⟨value, hvalue, hsame.trans hdeclared⟩

/-- A well-typed script stays one under every edit that writes no value itself. -/
theorem edit (h : script.Sound) {change : Edit Standard} (hw : ¬ change.Writes)
    (places : change.Places Standard.Instance) : (script.edit change).Sound where
  grounded := h.grounded.edit (fun _ _ hn => h.declaresCell hn) change
    (settles_of_declared (places.mono fun _ hb => hb.declared))
  fits := by
    rcases script.keeps_edit hw with hk | ⟨graph, builder, added, rfl, ha, heq⟩
    · intro id node' hn'
      obtain ⟨node, hn, hsame⟩ := hk id node' hn'
      exact (h.fits id node hn).of_cleared hsame
    · rw [heq]
      exact forall_addNode ha h.fits fun _ => places.fits _ _
  matched := h.matched.edit h.grounded hw (places.mono fun _ hb => hb.declared)

end Script.Sound

end FlowScript
