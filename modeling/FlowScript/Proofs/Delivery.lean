import FlowScript.Proofs.Arena
import FlowScript.Proofs.Reading
import FlowScript.Proofs.Retyping

/-!
# Writing through a link

A value that is written under the name of a bound link goes to every cell that is bound there and
whose type takes it, slot after slot (`setSlots_live`). What any such write leaves is the old script
with these cells changed, or one default, or one plain property (`Delivers`), and from then on the
value is read wherever a written cell is bound (`Arena.linkValue?_setProperty`). What a link lists
and is no cell is passed over, in writing as in reading.
-/

namespace FlowScript

variable {β : Type}

/-- How a value is stored in a place of a type: as it is, or an integer as a float. -/
inductive Property.StoredAs : Property → PropertyType → Property → Prop where
  | same (value : Property) : StoredAs value value.type value
  | widened (i : Int64) : StoredAs (.int i) .float (.float i.toFloat)

theorem Property.coerce_iff {value stored : Property} {type : PropertyType} :
    value.coerce type = some stored ↔ value.StoredAs type stored := by
  constructor
  · intro h
    unfold coerce at h
    split at h
    · obtain rfl := Option.some.inj h
      exact .widened _
    · obtain ⟨rfl, rfl⟩ := by simpa using h
      exact .same _
  · rintro (_ | i)
    · cases value <;> simp [coerce, type]
    · rfl

/-- What a node stores when a value is written to its cell, if its type takes the value. -/
def Node.stores? (node : Node β) (value : Property) : Option Property :=
  node.valueType.bind value.coerce

/-- The node with a value in its cell. -/
def Node.storing (node : Node β) (stored : Property) : Node β :=
  { node with properties := Keyed.insert node.properties cellName stored }

theorem Node.setValue_eq (node : Node β) (value : Property) : node.setValue value =
    ((node.stores? value).isSome, (node.stores? value).elim node node.storing) := by
  unfold setValue stores?
  split
  · rename_i h
    rw [h]
    rfl
  · rename_i h
    rw [h]
    rfl

theorem Node.setLocalProperty_unlinked {node : Node β} {name : String}
    (hl : node.linkIndex? name = none) (value : Property) : node.setLocalProperty name value =
      if node.isValueNode = true ∧ name = cellName then node.setValue value
      else (true, { node with properties := Keyed.insert node.properties name value }) := by
  rw [linkIndex?] at hl
  simp only [setLocalProperty, ValueLink.setDefault?_eq, hl, Option.map_none, Bool.and_eq_true,
    beq_iff_eq]

namespace Script

/-- What a cell stores when a value is written to it; nothing if there is no such cell or its type
does not take the value. -/
def stores? (script : Script β) (value : Property) (cell : NodeId) : Option Property :=
  (script.node? cell).bind (·.stores? value)

/-- The value that a cell holds. -/
def held? (script : Script β) (cell : NodeId) : Option Property :=
  (script.node? cell).bind (·.value?)

/-- The script with a value in each of the cells whose type takes it. -/
def storing (script : Script β) (cells : List NodeId) (value : Property) : Script β :=
  { script with
    nodes := script.nodes.map fun n =>
      if n.id ∈ cells then (n.stores? value).elim n n.storing else n }

/-- What it comes to, to write a value under a name of a node: whether the value was taken, and the
script that is left. -/
inductive Delivers (script : Script β) (id : NodeId) (name : String) (value : Property) :
    Bool × Script β → Prop where
  | lost (gone : script.node? id = none) : Delivers script id name value (false, script)
  /-- The link of this name is bound. -/
  | bound {node : Node β} {index : Nat} (owner : script.node? id = some node)
      (named : node.linkIndex? name = some index) (bound : script.liveBindings ⟨id, index⟩ ≠ []) :
      Delivers script id name value
        ((script.liveBindings ⟨id, index⟩).any fun cell => (script.stores? value cell).isSome,
          script.storing (script.liveBindings ⟨id, index⟩) value)
  | unbound {node : Node β} {index : Nat} (owner : script.node? id = some node)
      (named : node.linkIndex? name = some index) (unbound : script.liveBindings ⟨id, index⟩ = []) :
      Delivers script id name value
        (true, script.modifyLink ⟨id, index⟩ ({ · with default := value }))
  /-- No link has this name, and it is that of the node's own cell. -/
  | cell {node : Node β} (owner : script.node? id = some node)
      (unnamed : node.linkIndex? name = none) (own : node.isValueNode = true ∧ name = cellName) :
      Delivers script id name value
        ((script.stores? value id).isSome, script.storing [id] value)
  | plain {node : Node β} (owner : script.node? id = some node)
      (unnamed : node.linkIndex? name = none)
      (other : ¬ (node.isValueNode = true ∧ name = cellName)) :
      Delivers script id name value
        (true, script.modifyNode id fun n =>
          { n with properties := Keyed.insert n.properties name value })

/-- The cells that a write under a name goes to: those that are bound to the link of this name, or
the node's own. -/
def addressed (script : Script β) (id : NodeId) (name : String) : List NodeId :=
  (script.node? id).elim [] fun node =>
    (node.linkIndex? name).elim (if node.isValueNode ∧ name = cellName then [id] else [])
      fun index => script.liveBindings ⟨id, index⟩

/-- What a cell holds anew after a value was written under a name of a node. -/
def delivered? (script : Script β) (id : NodeId) (name : String) (value : Property)
    (cell : NodeId) : Option Property :=
  if cell ∈ script.addressed id name then script.stores? value cell else none

/-! ## Slot after slot -/

theorem node?_storing (script : Script β) (cells : List NodeId) (value : Property) (id : NodeId) :
    (script.storing cells value).node? id = (script.node? id).map fun n =>
      if id ∈ cells then (n.stores? value).elim n n.storing else n := by
  have hid : ∀ n : Node β,
      (if n.id ∈ cells then (n.stores? value).elim n n.storing else n).id = n.id := by
    intro n
    split
    · cases n.stores? value <;> rfl
    · rfl
  rw [storing, script.node?_map hid]
  rcases hn : script.node? id with _ | n
  · rfl
  · rw [Option.map_some, Option.map_some, id_of_node? hn]

theorem stores?_of_skeleton {script script' : Script β} (h : script'.skeleton = script.skeleton)
    (value : Property) (cell : NodeId) :
    script'.stores? value cell = script.stores? value cell := by
  have hview : ∀ s : Script β, s.stores? value cell
      = (s.skeleton.node? cell).bind fun n => n.valueType.bind value.coerce := by
    intro s
    rw [node?_skeleton, Option.bind_map]
    rfl
  rw [hview, h, hview]

theorem setCell_eq (script : Script β) (cell : NodeId) (value : Property) :
    script.setCell cell value
      = ((script.stores? value cell).isSome, script.storing [cell] value) := by
  have hstored : (script.modifyNode cell fun n => (n.setValue value).2)
      = script.storing [cell] value := by
    simp only [modifyNode, storing, List.mem_singleton, Node.setValue_eq]
  rw [setCell, stores?]
  rcases hn : script.node? cell with _ | node
  · have hnone : ∀ n ∈ script.nodes, ¬ n.id ∈ [cell] := by simpa [node?] using hn
    have hsame : script.nodes.map (fun n =>
        if n.id ∈ [cell] then (n.stores? value).elim n n.storing else n) = script.nodes :=
      (List.map_congr_left fun n hm => if_neg (hnone n hm)).trans (List.map_id _)
    rw [storing, hsame]
    rfl
  · rw [Option.bind_some, ← hstored]
    dsimp only
    rw [node.setValue_eq]

theorem storing_append (script : Script β) (cells : List NodeId) (cell : NodeId)
    (value : Property) :
    (script.storing cells value).storing [cell] value = script.storing (cells ++ [cell]) value := by
  simp only [storing, List.map_map]
  congr 1
  refine List.map_congr_left fun n _ => ?_
  by_cases hn : n.id = cell <;> by_cases hm : n.id ∈ cells
  · -- A cell that is listed twice is written twice, to the same effect.
    have hlast : n.id ∈ [cell] := List.mem_singleton.2 hn
    rcases hs : n.stores? value with _ | stored
    · simp [hm, hlast, hs]
    · have hagain : (n.storing stored).stores? value = some stored := hs
      have hid : (n.storing stored).id ∈ [cell] := hlast
      have htwice : (n.storing stored).storing stored = n.storing stored := by
        simp only [Node.storing, Keyed.insert_insert]
      simp only [Function.comp, if_pos hm, if_pos (List.mem_append_left [cell] hm), hs,
        Option.elim_some, if_pos hid, hagain, htwice]
  · have hnew : cell ∉ cells := hn ▸ hm
    simp [hn, hnew]
  · rcases hs : n.stores? value with _ | stored <;> simp [hm, hn, hs, Node.storing]
  · simp [hm, hn]

section live

variable {script : Script β} {ref : ValueLinkRef} {value : Property}

theorem setLinkValue_live {slot : Nat} {cell : NodeId}
    (hc : (script.liveBindings ref)[slot]? = some cell) :
    script.setLinkValue ref slot value = script.setCell cell value := by
  unfold setLinkValue
  split
  · rename_i hnone
    rw [hnone] at hc
    cases hc
  · rw [hc]

/-- Writing the first slots of a link writes the cells that are bound there. -/
theorem setSlots_live (ref : ValueLinkRef) (value : Property) :
    ∀ slots ≤ (script.liveBindings ref).length, setSlots ref value slots script
      = (((script.liveBindings ref).take slots).any fun cell => (script.stores? value cell).isSome,
        script.storing ((script.liveBindings ref).take slots) value)
  | 0, _ => by simp [setSlots, storing]
  | slots + 1, hle => by
    have hlt : slots < (script.liveBindings ref).length := hle
    have hbefore := setSlots_live ref value slots (Nat.le_of_lt hlt)
    have hskeleton := setSlots_skeleton ref value slots script
    set cell := (script.liveBindings ref)[slots] with hcell
    have hat : (script.liveBindings ref)[slots]? = some cell := List.getElem?_eq_getElem hlt
    have hlast : (setSlots ref value slots script).2.setLinkValue ref slots value
        = ((script.stores? value cell).isSome,
          script.storing ((script.liveBindings ref).take slots ++ [cell]) value) := by
      rw [setLinkValue_live (by rw [liveBindings_of_skeleton hskeleton, hat]),
        setCell_eq, stores?_of_skeleton hskeleton, hbefore, storing_append]
    rw [setSlots, hlast, hbefore, List.take_add_one, hat, Option.toList_some, List.any_append]
    simp only [List.any_cons, List.any_nil, Bool.or_false]

end live

/-- Two changes that come to the same at a node change the script alike. -/
theorem Arena.modifyNode_congr {script : Script β} (h : script.Arena) {id : NodeId} {node : Node β}
    (hn : script.node? id = some node) {f g : Node β → Node β} (hfg : f node = g node) :
    script.modifyNode id f = script.modifyNode id g := by
  have hnodes : (script.nodes.map fun n => if n.id = id then f n else n)
      = script.nodes.map fun n => if n.id = id then g n else n := by
    refine List.map_congr_left fun n hm => ?_
    split
    · rename_i hid
      have hfound := h.node?_eq hm
      rw [hid, hn] at hfound
      rw [← Option.some.inj hfound, hfg]
    · rfl
  rw [modifyNode, modifyNode, hnodes]

/-- A write does what `Delivers` says. -/
theorem delivers_setProperty {script : Script β} (ha : script.Arena) (id : NodeId)
    (name : String) (value : Property) :
    script.Delivers id name value (script.setProperty id name value) := by
  rw [setProperty]
  rcases hn : script.node? id with _ | node
  · exact .lost hn
  dsimp only
  rcases hl : node.linkIndex? name with _ | index
  · dsimp only
    rw [Node.setLocalProperty_unlinked hl]
    split
    case isTrue hown =>
      have hcell := script.setCell_eq id value
      rw [setCell, hn] at hcell
      dsimp only at hcell
      have hsame : script.modifyNode id (fun n => (n.setLocalProperty name value).2)
          = script.modifyNode id fun n => (n.setValue value).2 :=
        ha.modifyNode_congr hn (by rw [Node.setLocalProperty_unlinked hl, if_pos hown])
      rw [hsame, hcell]
      exact .cell hn hl hown
    case isFalse hown =>
      have hsame : script.modifyNode id (fun n => (n.setLocalProperty name value).2)
          = script.modifyNode id fun n =>
            { n with properties := Keyed.insert n.properties name value } :=
        ha.modifyNode_congr hn (by rw [Node.setLocalProperty_unlinked hl, if_neg hown])
      rw [hsame]
      exact .plain hn hl hown
  · dsimp only
    rw [slotCount]
    by_cases hb : script.liveBindings ⟨id, index⟩ = []
    · have hlink : (script.link? ⟨id, index⟩).isSome = true := by
        obtain ⟨link, hlink, -⟩ := getElem?_position? hl
        rw [link?, hn, Option.bind_some, hlink, Option.isSome_some]
      rw [hb, List.length_nil, Nat.zero_max, setSlots, setSlots, setLinkValue, hb]
      dsimp only
      rw [if_pos ⟨rfl, hlink⟩]
      exact .unbound hn hl hb
    · rw [Nat.max_eq_left (List.length_pos_iff.2 hb), setSlots_live _ value _ (Nat.le_refl _),
        List.take_length]
      exact .bound hn hl hb

/-! ## Reading what was written -/

theorem held?_storing {script : Script β} {cell : NodeId} (hc : script.isCell cell = true)
    (cells : List NodeId) (value : Property) : (script.storing cells value).held? cell
      = (if cell ∈ cells then script.stores? value cell else none).or (script.held? cell) := by
  obtain ⟨node, hn, hv⟩ := isCell_iff.1 hc
  rw [held?, node?_storing, stores?, held?, hn, Option.map_some, Option.bind_some,
    Option.bind_some, Option.bind_some]
  split
  · rcases node.stores? value with _ | stored
    · rfl
    · exact (if_pos hv).trans ((Keyed.get?_insert _ _ _ _).trans (if_pos rfl))
  · rfl

theorem held?_modifyNode (script : Script β) {id : NodeId} {f : Node β → Node β}
    (hid : ∀ n, (f n).id = n.id) {cell : NodeId}
    (hf : cell = id → ∀ node, script.node? id = some node → (f node).value? = node.value?) :
    (script.modifyNode id f).held? cell = script.held? cell := by
  rw [held?, node?_modifyNode script f hid, held?]
  split
  · rename_i heq
    rcases hn : script.node? cell with _ | node
    · rfl
    · exact hf heq node (heq ▸ hn)
  · rfl

variable {script : Script β} {id : NodeId} {name : String} {value : Property}
  {result : Bool × Script β}

theorem addressed_of_node? {node : Node β} (hn : script.node? id = some node) :
    script.addressed id name = (node.linkIndex? name).elim
      (if node.isValueNode ∧ name = cellName then [id] else [])
      fun index => script.liveBindings ⟨id, index⟩ := by
  rw [addressed, hn, Option.elim_some]

/-- A cell holds what was delivered to it, or else what it held before. -/
theorem Delivers.held? (h : script.Delivers id name value result) {cell : NodeId}
    (hc : script.isCell cell = true) : result.2.held? cell
      = (script.delivered? id name value cell).or (script.held? cell) := by
  rw [delivered?]
  cases h with
  | lost gone =>
    rw [addressed, gone]
    rfl
  | bound owner named bound =>
    rw [addressed_of_node? owner, named]
    exact held?_storing hc _ value
  | unbound owner named unbound =>
    rw [addressed_of_node? owner, named, Option.elim_some, unbound, if_neg List.not_mem_nil,
      Option.none_or]
    exact script.held?_modifyNode (f := fun n => n.modifyLink _ _) (fun _ => rfl) fun _ _ _ => rfl
  | cell owner unnamed own =>
    rw [addressed_of_node? owner, unnamed, Option.elim_none, if_pos own]
    exact held?_storing hc [id] value
  | plain owner unnamed other =>
    rw [addressed_of_node? owner, unnamed, Option.elim_none, if_neg other,
      if_neg List.not_mem_nil, Option.none_or]
    refine script.held?_modifyNode
      (f := fun n => { n with properties := Keyed.insert n.properties name value })
      (fun _ => rfl) fun heq node hn => ?_
    -- A cell of this id is a value node, so the property is another one.
    obtain ⟨found, hfound, hv⟩ := isCell_iff.1 hc
    obtain rfl := Option.some.inj (hfound.symm.trans (heq ▸ hn))
    obtain rfl := Option.some.inj (hn.symm.trans owner)
    have hne : name ≠ cellName := fun hname => other ⟨hv, hname⟩
    rw [Node.value?, Node.value?]
    exact congrArg (if found.isValueNode then · else none)
      ((Keyed.get?_insert _ _ _ _).trans (if_neg hne))

theorem linkValue?_held {ref : ValueLinkRef} {slot : Nat} {cell : NodeId}
    (hc : (script.liveBindings ref)[slot]? = some cell) :
    script.linkValue? ref slot = script.held? cell :=
  linkValue?_live hc

/-- Without a binding the first slot reads the default. -/
theorem linkValue?_unbound {ref : ValueLinkRef} {link : ValueLink}
    (hl : script.link? ref = some link) (hb : script.liveBindings ref = []) :
    script.linkValue? ref 0 = some link.default := by
  rw [linkValue?, hb, hl]
  rfl

/-- A slot reads what was delivered to the cell that is bound there, or else what it read before. -/
theorem Arena.linkValue?_setProperty (ha : script.Arena) (id : NodeId) (name : String)
    (value : Property) {ref : ValueLinkRef} {slot : Nat} {cell : NodeId}
    (hc : ((script.setProperty id name value).2.liveBindings ref)[slot]? = some cell) :
    (script.setProperty id name value).2.linkValue? ref slot
      = (script.delivered? id name value cell).or (script.linkValue? ref slot) := by
  have hbefore := hc
  rw [liveBindings_of_skeleton (script.setProperty_skeleton id name value)] at hbefore
  rw [linkValue?_held hc, linkValue?_held hbefore]
  exact (delivers_setProperty ha id name value).held?
    (mem_liveBindings.1 (List.mem_of_getElem? hbefore)).2

theorem property?_of_link {node : Node β} {index : Nat} (hn : script.node? id = some node)
    (hl : node.linkIndex? name = some index) :
    script.property? id name = script.linkValue? ⟨id, index⟩ 0 := by
  rw [property?, hn]
  dsimp only
  rw [hl]

/-- Where no binding is followed, a read finds what the node itself says. -/
theorem property?_eq_local {node : Node β} (hn : script.node? id = some node)
    (hb : ∀ index, node.linkIndex? name = some index → script.liveBindings ⟨id, index⟩ = []) :
    script.property? id name = node.localProperty? name := by
  rcases hl : node.linkIndex? name with _ | index
  · have hnone : node.links.find? (·.name == name) = none := by
      rw [List.find?_eq_none]
      exact fun link hlink => by simp [position?_eq_none.1 hl link hlink]
    rw [property?, hn]
    dsimp only
    rw [hl, Node.localProperty?, hnone]
  · obtain ⟨link, hlink, hfirst⟩ := getElem?_position? hl
    have hfound : script.link? ⟨id, index⟩ = some link := by
      rw [link?, hn, Option.bind_some, hlink]
    rw [property?_of_link hn hl, linkValue?_unbound hfound (hb index hl), Node.localProperty?,
      hfirst]

/-- In every script that a host can come by, a write under the name of a bound link stores the value
in each cell that is bound there and whose type takes it, and was taken if any of them took it; a
write under the name of an unbound link replaces its default; any other write goes to the node's own
cell, if its type takes the value, or to a plain property. Nothing else changes. From then on every
slot of every link reads what was delivered to its cell, a property that a bound link stands for
reads it in the first slot, and any other property reads what the node itself says. -/
theorem Reachable.writes_through [Behavior β] {placed : NodeBuilder β → Prop}
    (h : script.Reachable placed) (id : NodeId) (name : String) (value : Property) {taken : Bool}
    {after : Script β} (hset : script.setProperty id name value = (taken, after)) :
    script.Delivers id name value (taken, after)
      ∧ (∀ cell stored, script.stores? value cell = some stored ↔ ∃ node type,
        script.node? cell = some node ∧ node.valueType = some type ∧ value.StoredAs type stored)
      ∧ (∀ ref slot cell, (after.liveBindings ref)[slot]? = some cell →
        after.linkValue? ref slot
          = (script.delivered? id name value cell).or (script.linkValue? ref slot))
      ∧ (∀ owner node label index cell, after.node? owner = some node →
        node.linkIndex? label = some index → (after.liveBindings ⟨owner, index⟩)[0]? = some cell →
        after.property? owner label
          = (script.delivered? id name value cell).or (script.property? owner label))
      ∧ ∀ owner node label, after.node? owner = some node →
        (∀ index, node.linkIndex? label = some index → after.liveBindings ⟨owner, index⟩ = []) →
        after.property? owner label = node.localProperty? label := by
  have ha := h.arena
  obtain rfl : (script.setProperty id name value).2 = after := by rw [hset]
  have hskeleton := script.setProperty_skeleton id name value
  refine ⟨?_, fun cell stored => ?_,
    fun ref slot cell => ha.linkValue?_setProperty id name value,
    fun owner node label index cell hn hl hc => ?_, fun owner node label hn =>
      property?_eq_local hn⟩
  · rw [← hset]
    exact delivers_setProperty ha id name value
  · simp only [stores?, Node.stores?, Option.bind_eq_some_iff, Property.coerce_iff,
      ← exists_and_left]
  · obtain ⟨old, hold, hsame⟩ := node?_of_skeleton hskeleton hn
    have hbefore : old.linkIndex? label = some index := by
      rw [← hl, Node.linkIndex?_of_skeleton hsame]
    rw [property?_of_link hn hl, property?_of_link hold hbefore]
    exact ha.linkValue?_setProperty id name value hc

/-- How to come by a message with an integer, a text and a float for its parameters, and a loop that
starts at the integer. -/
def noticing : List (Edit Standard) :=
  [.addNode rootGraph Standard.sendMessageNode,
    .addNode rootGraph (Standard.cell "Integer" (.int 4)),
    .addNode rootGraph (Standard.cell "String" (.string "b")),
    .addNode rootGraph (Standard.cell "Float" (.float 0)),
    .addNode rootGraph Standard.forLoopNode,
    .connectValue ⟨⟨0⟩, 0⟩ ⟨1⟩, .connectValue ⟨⟨0⟩, 0⟩ ⟨2⟩, .connectValue ⟨⟨0⟩, 0⟩ ⟨3⟩,
    .connectValue ⟨⟨4⟩, 0⟩ ⟨1⟩]

/-- A message and a loop that share a cell. -/
def notice : Script Standard := noticing.foldl Script.edit (withRootName "root")

theorem reachable_notice : notice.Reachable NodeBuilder.Made := by
  have created (type : TypeId) {builder : NodeBuilder Standard}
      (h : Standard.registry.create type [] = .ok builder) : builder.Made :=
    Standard.places_made type [] builder h
  refine .edits (.fresh "root") fun change hc => ?_
  simp only [noticing, List.mem_cons, List.not_mem_nil, or_false] at hc
  rcases hc with rfl | rfl | rfl | rfl | rfl | rfl | rfl | rfl | rfl
  · exact created Standard.sendMessageType rfl
  · exact .value _ _ _
  · exact .value _ _ _
  · exact .value _ _ _
  · exact created (coreType "For Loop") rfl
  all_goals trivial

/-- An integer is written to the parameters: the integer and the float take it, the text does not,
and the loop starts at it. -/
theorem writes_through_of_notice : ∃ after,
    notice.setProperty ⟨0⟩ "Param" (.int 7) = (true, after)
      ∧ after.linkValue? ⟨⟨0⟩, 0⟩ 0 = some (.int 7)
      ∧ after.linkValue? ⟨⟨0⟩, 0⟩ 1 = notice.linkValue? ⟨⟨0⟩, 0⟩ 1
      ∧ after.linkValue? ⟨⟨0⟩, 0⟩ 2 = some (.float (Int64.toFloat 7))
      ∧ after.property? ⟨4⟩ "Start" = some (.int 7) := by
  obtain ⟨after, hset⟩ : ∃ after, notice.setProperty ⟨0⟩ "Param" (.int 7) = (true, after) :=
    ⟨_, Prod.ext (by decide +kernel) rfl⟩
  obtain ⟨-, -, hslots, hreads, -⟩ := reachable_notice.writes_through ⟨0⟩ "Param" (.int 7) hset
  have hkept := notice.setProperty_skeleton ⟨0⟩ "Param" (.int 7)
  rw [hset] at hkept
  have hlive : after.liveBindings = notice.liveBindings := liveBindings_of_skeleton hkept
  have hlists : notice.liveBindings ⟨⟨0⟩, 0⟩ = [⟨1⟩, ⟨2⟩, ⟨3⟩]
      ∧ notice.liveBindings ⟨⟨4⟩, 0⟩ = [⟨1⟩] := by
    decide +kernel
  obtain ⟨loop, hloop, hname⟩ : ∃ loop, notice.node? ⟨4⟩ = some loop
      ∧ loop.linkIndex? "Start" = some 0 := ⟨_, rfl, rfl⟩
  obtain ⟨loop', hloop', hsame⟩ := node?_of_skeleton hkept.symm hloop
  have hname' := (congrFun (Node.linkIndex?_of_skeleton hsame) "Start").symm.trans hname
  refine ⟨after, hset, ?_, ?_, ?_, ?_⟩
  · exact hslots ⟨⟨0⟩, 0⟩ 0 ⟨1⟩ (by rw [hlive, hlists.1]; rfl)
  · exact hslots ⟨⟨0⟩, 0⟩ 1 ⟨2⟩ (by rw [hlive, hlists.1]; rfl)
  · exact hslots ⟨⟨0⟩, 0⟩ 2 ⟨3⟩ (by rw [hlive, hlists.1]; rfl)
  · exact hreads ⟨4⟩ loop' "Start" 0 ⟨1⟩ hloop' hname' (by rw [hlive, hlists.2]; rfl)

end Script

end FlowScript
