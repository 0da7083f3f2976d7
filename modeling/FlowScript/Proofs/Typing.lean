import FlowScript.Proofs.Bindings

/-!
# Types of values

A link that checks types is bound to cells that declare the type of its default (`Matched`), and a
cell holds a value of the type that it declares (`Stocked`). Both can be read off the typing of a
script, which is what is left of it when every value is replaced by its type. A write through a link
that has the type of the value changes no type (`typing_setProperty`).
-/

namespace FlowScript

variable {β : Type}

theorem Property.type_of_coerce {value stored : Property} {target : PropertyType}
    (h : value.coerce target = some stored) : stored.type = target := by
  unfold coerce at h
  split at h
  · rw [← Option.some.inj h]
    rfl
  · split at h
    · rename_i htype
      rw [← Option.some.inj h]
      exact htype
    · cases h

theorem Keyed.map_insert_of_get? {κ α γ : Type} [DecidableEq κ] {f : κ × α → γ} {key : κ}
    {old : α} (new : α) (hf : f (key, old) = f (key, new)) : ∀ {m : Keyed κ α},
      get? m key = some old → (insert m key new).map f = m.map f
  | [], h => by simp [get?] at h
  | (k, v) :: m, h => by
    rw [get?] at h
    rw [insert]
    split at h <;> rename_i hk
    · rw [if_pos hk, hk, List.map_cons, List.map_cons, ← hf, Option.some.inj h]
    · rw [if_neg hk, List.map_cons, List.map_cons, map_insert_of_get? new hf h]

theorem Keyed.get?_map {κ α γ : Type} [DecidableEq κ] (f : α → γ) (key : κ) :
    ∀ m : Keyed κ α, get? (m.map fun e => (e.1, f e.2)) key = (get? m key).map f
  | [] => rfl
  | (k, v) :: m => by
    rw [List.map_cons, get?, get?, get?_map f key m]
    split <;> rfl

theorem map_modify_at {α γ : Type} {g : α → γ} {f : α → α} {l : List α} {i : Nat}
    (h : ∀ a, l[i]? = some a → g (f a) = g a) : (l.modify i f).map g = l.map g := by
  refine List.ext_getElem? fun j => ?_
  rw [List.getElem?_map, List.getElem?_map, List.getElem?_modify]
  split
  · rename_i heq
    obtain rfl := heq
    rcases hl : l[i]? with _ | a
    · rfl
    · simp [h a hl]
  · simp

/-- What is left of a node when each value is replaced by its type. -/
structure Typing (β : Type) where
  skeleton : Node Unit
  defaults : List PropertyType
  values : List (String × PropertyType)
  behavior : Option β

namespace Node

def typing (node : Node β) : Typing β where
  skeleton := node.skeleton
  defaults := node.links.map (·.type)
  values := node.properties.map fun e => (e.1, e.2.type)
  behavior := node.behavior

/-- A node that declares a type holds a value of that type as its cell. -/
def Stocked (node : Node β) : Prop :=
  ∀ type, node.valueType = some type →
    ∃ value, Keyed.get? node.properties cellName = some value ∧ value.type = type

theorem Stocked.of_typing {node node' : Node β} (h : node'.typing = node.typing)
    (hs : node.Stocked) : node'.Stocked := by
  simp only [typing, Typing.mk.injEq] at h
  obtain ⟨hskeleton, -, hvalues, -⟩ := h
  intro type htype
  have hvalueType : node'.skeleton.valueType = node.skeleton.valueType := by rw [hskeleton]
  obtain ⟨value, hvalue, hhas⟩ := hs type (hvalueType.symm.trans htype)
  have hget := congrArg (Keyed.get? · cellName) hvalues
  simp only [Keyed.get?_map Property.type, hvalue, Option.map_some] at hget
  obtain ⟨value', hvalue', htype'⟩ := Option.map_eq_some_iff.1 hget
  exact ⟨value', hvalue', htype'.trans hhas⟩

theorem setValue_typing {node : Node β} (hs : node.Stocked) (value : Property) :
    (node.setValue value).2.typing = node.typing := by
  unfold setValue
  split
  · rename_i stored hstored
    obtain ⟨type, htype, hcoerce⟩ := Option.bind_eq_some_iff.1 hstored
    obtain ⟨old, hold, hsame⟩ := hs type htype
    have hvalues := Keyed.map_insert_of_get? (f := fun e : String × Property => (e.1, e.2.type))
      stored (by rw [hsame, Property.type_of_coerce hcoerce]) hold
    simp only [typing, hvalues]
    rfl
  · rfl

theorem activateOutput_typing (node : Node β) (index : Nat) :
    (node.activateOutput index).2.typing = node.typing := by
  have hskeleton := node.activateOutput_skeleton index
  unfold activateOutput at hskeleton ⊢
  split
  · rename_i h
    simp only [h, if_true] at hskeleton
    simp only [typing, hskeleton]
    rfl
  · rfl

end Node

namespace Script

/-- What is left of the nodes when each value is replaced by its type. -/
def typing (script : Script β) (id : NodeId) : Option (Typing β) :=
  (script.node? id).map Node.typing

/-- A link that checks types is bound to cells of the type of its default. -/
def Matched (script : Script β) : Prop :=
  ∀ ref link, script.link? ref = some link → link.isChecked = true → ∀ id ∈ link.bound, ∀ cell,
    script.node? id = some cell → cell.valueType = some link.type

def Stocked (script : Script β) : Prop :=
  ∀ id node, script.node? id = some node → node.Stocked

variable {script script' : Script β}

/-! ## Reading types -/

theorem node?_of_typing (h : script'.typing = script.typing) {id : NodeId} {node' : Node β}
    (hn : script'.node? id = some node') :
    ∃ node, script.node? id = some node ∧ node'.typing = node.typing := by
  have hid := congrFun h id
  rw [typing, typing, hn] at hid
  obtain ⟨node, hnode, heq⟩ := Option.map_eq_some_iff.1 hid.symm
  exact ⟨node, hnode, heq.symm⟩

theorem link?_of_typing (h : script'.typing = script.typing) {ref : ValueLinkRef}
    {link' : ValueLink} (hl : script'.link? ref = some link') :
    ∃ link, script.link? ref = some link ∧ link'.skeleton = link.skeleton
      ∧ link'.type = link.type := by
  obtain ⟨node', hn', hl'⟩ := Option.bind_eq_some_iff.1 hl
  obtain ⟨node, hn, hsame⟩ := node?_of_typing h hn'
  simp only [Node.typing, Typing.mk.injEq] at hsame
  obtain ⟨hskeleton, hdefaults, -, -⟩ := hsame
  have hlinks : node'.skeleton.links[ref.index]? = node.skeleton.links[ref.index]? := by
    rw [hskeleton]
  have htypes : (node'.links.map (·.type))[ref.index]? = (node.links.map (·.type))[ref.index]? := by
    rw [hdefaults]
  simp only [Node.skeleton, List.getElem?_map, hl', Option.map_some] at hlinks htypes
  obtain ⟨link, hlink, hshape⟩ := Option.map_eq_some_iff.1 hlinks.symm
  rw [hlink] at htypes
  refine ⟨link, ?_, hshape.symm, Option.some.inj htypes⟩
  rw [link?, hn, Option.bind_some, hlink]

theorem Stocked.of_typing (h : script'.typing = script.typing) (hs : script.Stocked) :
    script'.Stocked := by
  intro id node' hn'
  obtain ⟨node, hn, hsame⟩ := node?_of_typing h hn'
  exact (hs id node hn).of_typing hsame

theorem Matched.of_typing (h : script'.typing = script.typing) (hm : script.Matched) :
    script'.Matched := by
  intro ref link' hl' hchecked id hid cell' hc'
  obtain ⟨link, hl, hskeleton, htype⟩ := link?_of_typing h hl'
  obtain ⟨cell, hc, hsame⟩ := node?_of_typing h hc'
  simp only [ValueLink.skeleton, ValueLink.mk.injEq] at hskeleton
  obtain ⟨-, -, -, hcheck, -, hbound⟩ := hskeleton
  have hvalueType : cell'.typing.skeleton.valueType = cell.typing.skeleton.valueType := by
    rw [hsame]
  have hcell : cell.valueType = some link.type :=
    hm ref link hl (hcheck ▸ hchecked) id (hbound ▸ hid) cell hc
  rw [htype]
  exact hvalueType.trans hcell

/-- The first slot of a link that checks types reads a value of the type of its default. -/
theorem linkValue?_type (hm : script.Matched) (hs : script.Stocked) {ref : ValueLinkRef}
    {link : ValueLink} (hl : script.link? ref = some link) (hchecked : link.isChecked = true) :
    ∃ value, script.linkValue? ref 0 = some value ∧ value.type = link.type := by
  unfold linkValue?
  rcases hcells : script.liveBindings ref with _ | ⟨id, rest⟩
  · refine ⟨link.default, ?_, rfl⟩
    simp only [if_true, hl, Option.map_some]
  · have hid : id ∈ script.liveBindings ref := by
      rw [hcells]
      exact List.mem_cons_self
    rw [liveBindings, hl, Option.elim_some, List.mem_filter] at hid
    obtain ⟨cell, hc, hvalue⟩ := isCell_iff.1 hid.2
    obtain ⟨value, hget, htype⟩ :=
      hs id cell hc link.type (hm ref link hl hchecked id hid.1 cell hc)
    refine ⟨value, ?_, htype⟩
    simp [hc, Node.value?, hvalue, hget]

/-! ## Writing values of the right type -/

theorem typing_modifyNode {id : NodeId} {f : Node β → Node β} (hid : ∀ n, (f n).id = n.id)
    (hf : ∀ node, script.node? id = some node → (f node).typing = node.typing) :
    (script.modifyNode id f).typing = script.typing := by
  funext id'
  simp only [typing, node?_modifyNode script f hid]
  split
  · rename_i heq
    obtain rfl := heq
    rcases hn : script.node? id' with _ | node
    · rfl
    · rw [Option.map_some, Option.map_some, Option.map_some, hf node hn]
  · rfl

theorem typing_setCell (hs : script.Stocked) (cell : NodeId) (value : Property) :
    (script.setCell cell value).2.typing = script.typing := by
  unfold setCell
  split
  · rfl
  · exact typing_modifyNode (fun n => n.setValue_id value) fun node hn =>
      Node.setValue_typing (hs cell node hn) value

theorem typing_setLinkValue (hs : script.Stocked) {ref : ValueLinkRef} {value : Property}
    (hl : ∀ link, script.link? ref = some link → link.type = value.type) (slot : Nat) :
    (script.setLinkValue ref slot value).2.typing = script.typing := by
  unfold setLinkValue
  split
  · split
    · refine typing_modifyNode (fun _ => rfl) fun node hn => ?_
      have hskeleton := node.modifyLink_default_skeleton ref.index value
      have htypes : (node.links.modify ref.index ({ · with default := value })).map (·.type) =
          node.links.map (·.type) := by
        refine map_modify_at fun l hl' => ?_
        exact (hl l (by rw [link?, hn, Option.bind_some, hl'])).symm
      simp only [Node.typing, hskeleton]
      simp only [Node.modifyLink, htypes]
    · rfl
  · split
    · exact typing_setCell hs _ value
    · rfl

theorem typing_setSlots {ref : ValueLinkRef} {value : Property} : ∀ (slots : Nat)
    {script : Script β}, script.Stocked →
      (∀ link, script.link? ref = some link → link.type = value.type) →
      (setSlots ref value slots script).2.typing = script.typing
  | 0, _, _, _ => rfl
  | slots + 1, script, hs, hl => by
    have hbefore := typing_setSlots slots hs hl
    rw [setSlots]
    refine (typing_setLinkValue (hs.of_typing hbefore) (fun link' hl' => ?_) slots).trans hbefore
    obtain ⟨link, hlink, -, htype⟩ := link?_of_typing hbefore hl'
    rw [htype]
    exact hl link hlink

theorem typing_setProperty (hs : script.Stocked) {id : NodeId} {node : Node β} {name : String}
    {index : Nat} {link : ValueLink} (hn : script.node? id = some node)
    (hname : node.linkIndex? name = some index) (hl : node.links[index]? = some link)
    {value : Property} (htype : link.type = value.type) :
    (script.setProperty id name value).2.typing = script.typing := by
  unfold setProperty
  simp only [hn, hname]
  refine typing_setSlots _ hs fun link' hl' => ?_
  simp only [link?, hn, Option.bind_some, hl, Option.some.injEq] at hl'
  rw [← hl', htype]

end Script

end FlowScript
