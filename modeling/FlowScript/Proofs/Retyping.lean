import FlowScript.Proofs.WellTyped

/-!
# Defaults that change their type

A link that checks types compares a cell with its default when the cell is bound, and the default of
a bound link is not written through the link. Only a write to the node itself passes its bindings.
So what was checked stays right as long as no such write gives the default of a bound link another
type (`Unretyped.matched_edit`), and one that does takes effect. All this is about nodes that are
placed with new value links. One that is read off a placed node is still bound, and can be told to
check types, or be given another default, before it is placed once more.
-/

namespace FlowScript

variable {β : Type}

namespace ValueLink

theorem setDefault?_eq (name : String) (value : Property) : ∀ links : List ValueLink,
    setDefault? links name value =
      (position? (·.name == name) links).map (links.modify · ({ · with default := value }))
  | [] => rfl
  | link :: links => by
    rw [setDefault?, position?]
    by_cases h : link.name = name
    · simp [h]
    · simp [h, setDefault?_eq name value links, Function.comp_def]

end ValueLink

namespace Node

/-- The value link whose default a write to the node itself replaces. There is none if the name is
that of the node's cell. -/
def ownLink? (node : Node β) (name : String) : Option Nat :=
  if node.isValueNode && name == cellName then none else node.linkIndex? name

theorem setValue_links (node : Node β) (value : Property) :
    (node.setValue value).2.links = node.links := by
  unfold setValue
  split <;> rfl

theorem setLocalProperty_links (node : Node β) (name : String) (value : Property) :
    (node.setLocalProperty name value).2.links =
      (node.ownLink? name).elim node.links (node.links.modify · ({ · with default := value })) := by
  unfold setLocalProperty ownLink?
  split
  · exact node.setValue_links value
  · have hset := ValueLink.setDefault?_eq name value node.links
    change _ = (node.linkIndex? name).map _ at hset
    rw [hset]
    rcases node.linkIndex? name with _ | index <;> rfl

end Node

namespace Script

/-- The value link whose default a write to a node itself replaces. -/
def ownLink? (script : Script β) (id : NodeId) (name : String) : Option ValueLinkRef :=
  (script.node? id).bind fun node => (node.ownLink? name).map (⟨id, ·⟩)

/-- The edit writes to a node itself, and gives the default of a link that checks types and is bound
a value of another type. -/
def Retypes (script : Script β) : Edit β → Prop
  | .setLocalProperty id name value => ∃ ref link, script.ownLink? id name = some ref
    ∧ script.link? ref = some link ∧ link.isChecked = true ∧ link.bound ≠ []
    ∧ value.type ≠ link.type
  | _ => False

/-! ## Links across writes -/

/-- Nothing but values and pulses has changed, and no value of a link that is bound. -/
structure Steady (before after : Script β) : Prop where
  skeleton : after.skeleton = before.skeleton
  links (ref : ValueLinkRef) (link : ValueLink) : before.link? ref = some link → link.bound ≠ [] →
    after.link? ref = some link

namespace Steady

variable {first second third : Script β}

theorem refl (script : Script β) : script.Steady script := ⟨rfl, fun _ _ hl _ => hl⟩

theorem trans (h : first.Steady second) (h' : second.Steady third) : first.Steady third :=
  ⟨h'.skeleton.trans h.skeleton,
    fun ref link hl hb => h'.links ref link (h.links ref link hl hb) hb⟩

theorem modifyNode (script : Script β) (id : NodeId) {f : Node β → Node β}
    (hs : ∀ n, (f n).skeleton = n.skeleton) (hl : ∀ n, (f n).links = n.links) :
    script.Steady (script.modifyNode id f) := by
  have hid : ∀ n, (f n).id = n.id := fun n => (congrArg Node.id (hs n) :)
  refine ⟨script.modifyNode_skeleton id hs, fun ref link hlink _ => ?_⟩
  obtain ⟨node, hn, hlink⟩ := Option.bind_eq_some_iff.1 hlink
  rw [link?, node?_modifyNode script f hid, hn]
  split
  · rw [Option.map_some, Option.bind_some, hl, hlink]
  · rw [Option.bind_some, hlink]

theorem setCell (script : Script β) (cell : NodeId) (value : Property) :
    script.Steady (script.setCell cell value).2 := by
  unfold Script.setCell
  split
  · exact .refl script
  · exact .modifyNode script cell (fun n => n.setValue_skeleton value)
      fun n => n.setValue_links value

theorem setLinkValue {script : Script β} (hg : script.Grounded) (ref : ValueLinkRef) (slot : Nat)
    (value : Property) : script.Steady (script.setLinkValue ref slot value).2 := by
  have hlive := hg.liveBindings_eq ref
  unfold Script.setLinkValue
  split
  · rename_i hnone
    split
    · refine ⟨script.modifyNode_skeleton ref.node fun n =>
        n.modifyLink_default_skeleton ref.index value, fun ref' link hl hb => ?_⟩
      rw [link?_modifyLink]
      split
      · -- Only an unbound link is written itself.
        rename_i href
        rw [href] at hl
        rw [hnone, bound_of_link? hl] at hlive
        exact absurd hlive.symm hb
      · exact hl
    · exact .refl script
  · split
    · exact .setCell script _ value
    · exact .refl script

theorem setSlots (ref : ValueLinkRef) (value : Property) : ∀ (slots : Nat) {script : Script β},
    script.Grounded → script.Steady (Script.setSlots ref value slots script).2
  | 0, script, _ => .refl script
  | slots + 1, script, hg => by
    have before := setSlots ref value slots hg
    rw [Script.setSlots]
    exact before.trans (.setLinkValue (hg.of_skeleton before.skeleton) ref slots value)

theorem setProperty {script : Script β} (hg : script.Grounded) (id : NodeId) (name : String)
    (value : Property) : script.Steady (script.setProperty id name value).2 := by
  unfold Script.setProperty
  split
  · exact .refl script
  rename_i node hn
  split
  · exact .setSlots _ value _ hg
  · rename_i hindex
    refine ⟨script.modifyNode_skeleton id fun n => n.setLocalProperty_skeleton name value, ?_⟩
    -- The node has no link of this name, so the write goes to a property.
    have hown : node.ownLink? name = none := by
      unfold Node.ownLink?
      split
      · rfl
      · exact hindex
    intro ref link hl _
    obtain ⟨n, hn', hl⟩ := Option.bind_eq_some_iff.1 hl
    rw [link?, node?_modifyNode script _ fun n => n.setLocalProperty_id name value, hn']
    split
    · rename_i hid
      obtain rfl := Option.some.inj ((hid ▸ hn').symm.trans hn)
      rw [Option.map_some, Option.bind_some, Node.setLocalProperty_links, hown]
      exact hl
    · rw [Option.bind_some, hl]

end Steady

theorem valueType_of_skeleton {script script' : Script β} (h : script'.skeleton = script.skeleton)
    {id : NodeId} {node' : Node β} (hn : script'.node? id = some node') :
    ∃ node, script.node? id = some node ∧ node'.valueType = node.valueType := by
  have hfound := script'.node?_skeleton id
  rw [h, node?_skeleton, hn] at hfound
  obtain ⟨node, hnode, hsame⟩ := Option.map_eq_some_iff.1 hfound
  exact ⟨node, hnode, (congrArg Node.valueType hsame.symm :)⟩

/-- Cells keep their type, and the defaults of bound links their values. -/
theorem Matched.of_steady {script script' : Script β} (hm : script.Matched)
    (h : script.Steady script') : script'.Matched := by
  intro ref link' hl' hchecked id hid cell' hc'
  have hfound := script'.link?_skeleton ref
  rw [h.skeleton, link?_skeleton, hl'] at hfound
  obtain ⟨link, hl, hsame⟩ := Option.map_eq_some_iff.1 hfound
  have hbound : link.skeleton.bound = link'.skeleton.bound := by rw [hsame]
  have hbound : link.bound = link'.bound := hbound
  have hkept := h.links ref link hl (hbound ▸ List.ne_nil_of_mem hid)
  obtain rfl := Option.some.inj (hkept.symm.trans hl')
  obtain ⟨cell, hc, hsame⟩ := valueType_of_skeleton h.skeleton hc'
  rw [hsame]
  exact hm ref link hl hchecked id hid cell hc

theorem steady_answer {turn : Turn β} (hg : turn.script.Grounded) (r : Request) :
    turn.script.Steady (turn.answer r).2.script := by
  cases r with
  | pulse output =>
    simp only [Turn.answer, Turn.pulse]
    split
    · exact .refl _
    · refine .modifyNode _ _ (fun n => n.activateOutput_skeleton output) fun n => ?_
      unfold Node.activateOutput
      split <;> rfl
  | setProperty name value => exact .setProperty hg _ name value
  | setSlot link index value =>
    simp only [Turn.answer, Turn.edit]
    rcases turn.link? link with _ | ref
    · exact .refl _
    · exact .setLinkValue hg ref index value
  | pushTargets output =>
    simp only [Turn.answer, Turn.pushTargets]
    split <;> exact .refl _
  | _ => exact .refl _

theorem steady_lasting :
    Lasting fun before after : Script β => before.Grounded → before.Steady after where
  refl script _ := .refl script
  trans h h' hg := (h hg).trans (h' (hg.of_skeleton (h hg).skeleton))
  answer turn r hg := steady_answer hg r
  book script id f hf _ := .modifyNode script id (fun n => (hf n).skeleton) fun n => by
    obtain ⟨behavior, outputs, heq, -⟩ := hf n
    rw [heq]

/-! ## Writes to a node itself -/

theorem link?_setLocalProperty (script : Script β) (id : NodeId) (name : String) (value : Property)
    (ref : ValueLinkRef) : (script.edit (.setLocalProperty id name value)).link? ref =
      if script.ownLink? id name = some ref
        then (script.link? ref).map ({ · with default := value }) else script.link? ref := by
  have hnode := script.node?_modifyNode (fun n => (n.setLocalProperty name value).2)
    (fun n => n.setLocalProperty_id name value) id ref.node
  rw [edit, link?, hnode]
  by_cases hown : script.ownLink? id name = some ref
  · obtain ⟨node, hn, hfound⟩ := Option.bind_eq_some_iff.1 hown
    obtain ⟨index, hindex, rfl⟩ := Option.map_eq_some_iff.1 hfound
    simp [link?, hown, hn, Node.setLocalProperty_links, hindex]
  · rw [if_neg hown]
    split
    · rename_i hid
      rw [link?]
      rcases hn : script.node? ref.node with _ | node
      · rfl
      · rw [Option.map_some, Option.bind_some, Option.bind_some, Node.setLocalProperty_links]
        rcases hindex : node.ownLink? name with _ | index
        · rfl
        · have hne : index ≠ ref.index := by
            rintro rfl
            exact hown (by rw [ownLink?, ← hid, hn, Option.bind_some, hindex, Option.map_some])
          simp [hne]
    · rfl

/-- A write to a node itself keeps what was checked right unless it changes the type of a default
that was compared. -/
theorem Matched.setLocalProperty_iff {script : Script β} (hm : script.Matched)
    (hg : script.Grounded) (id : NodeId) (name : String) (value : Property) :
    (script.edit (.setLocalProperty id name value)).Matched
      ↔ ¬ script.Retypes (.setLocalProperty id name value) := by
  have hskeleton : (script.edit (.setLocalProperty id name value)).skeleton = script.skeleton :=
    script.modifyNode_skeleton id fun n => n.setLocalProperty_skeleton name value
  have hlink := script.link?_setLocalProperty id name value
  constructor
  · rintro hafter ⟨ref, link, hown, hl, hchecked, hbound, htype⟩
    obtain ⟨cell, hcell⟩ := List.exists_mem_of_ne_nil _ hbound
    obtain ⟨old, hold, -⟩ := isCell_iff.1 (hg.cells ref cell (bound_of_link? hl ▸ hcell))
    -- The cell still has the type that the default had, and not the one that it has now.
    obtain ⟨new, hnew, hsame⟩ := valueType_of_skeleton hskeleton.symm hold
    have hwas := hm ref link hl hchecked cell hcell old hold
    have his := hafter ref { link with default := value }
      (by rw [hlink, if_pos hown, hl, Option.map_some]) hchecked cell hcell new hnew
    exact htype (Option.some.inj (his.symm.trans (hsame.symm.trans hwas)))
  · intro hretypes ref link' hl' hchecked cell hcell new hnew
    obtain ⟨old, hold, hsame⟩ := valueType_of_skeleton hskeleton hnew
    rw [hsame]
    rw [hlink] at hl'
    split at hl'
    · rename_i hown
      obtain ⟨link, hl, rfl⟩ := Option.map_eq_some_iff.1 hl'
      by_cases htype : value.type = link.type
      · rw [ValueLink.type, htype]
        exact hm ref link hl hchecked cell hcell old hold
      · exact absurd ⟨ref, link, hown, hl, hchecked, List.ne_nil_of_mem hcell, htype⟩ hretypes
    · exact hm ref link' hl' hchecked cell hcell old hold

theorem Matched.edit_iff {script : Script β} (hm : script.Matched) (hg : script.Grounded)
    (change : Edit β) (places : change.Places NodeBuilder.Declared) :
    (script.edit change).Matched ↔ ¬ script.Retypes change := by
  cases change with
  | setLocalProperty id name value => exact hm.setLocalProperty_iff hg id name value
  | setProperty id name value =>
    exact iff_of_true (hm.of_steady (.setProperty hg id name value)) fun h => h
  | setLinkValue ref slot value =>
    exact iff_of_true (hm.of_steady (.setLinkValue hg ref slot value)) fun h => h
  | setValue id value =>
    refine iff_of_true (hm.of_steady ?_) fun h => h
    exact .modifyNode script id (fun n => n.setValue_skeleton value) fun n => n.setValue_links value
  | activateOutput id index =>
    refine iff_of_true (hm.of_steady ?_) fun h => h
    refine .modifyNode script id (fun n => n.activateOutput_skeleton index) fun n => ?_
    unfold Node.activateOutput
    split <;> rfl
  | _ => exact iff_of_true (hm.edit hg (fun h => h) places) fun h => h

/-! ## Reachable scripts -/

variable [Behavior β]

/-- The scripts that a host can come by, placing nodes with new value links, without ever giving the
default of a bound link that checks types another type. -/
inductive Unretyped : Script β → Prop where
  | fresh (name : String) : Unretyped (withRootName name)
  | built {definition : GraphDef} {registry : Registry β} {loaded : Loaded β}
      (places : registry.Places NodeBuilder.Declared)
      (built : definition.build registry = .ok loaded) : Unretyped loaded.script
  | edited {script : Script β} (change : Edit β) (places : change.Places NodeBuilder.Declared)
      (keeps : ¬ script.Retypes change) (unretyped : Unretyped script) :
      Unretyped (script.edit change)
  | stepped {director after : Director β} {fuel : Nat} {sim real : Float}
      {ending : Except Halt Report} (unretyped : Unretyped director.script)
      (updated : director.update fuel sim real = some (ending, after)) : Unretyped after.script

namespace Unretyped

variable {script : Script β}

theorem reachable (h : script.Unretyped) : script.Reachable NodeBuilder.Declared := by
  induction h with
  | fresh name => exact .fresh name
  | built places built => exact .built places built
  | edited change places keeps unretyped ih => exact ih.edited change places
  | stepped unretyped updated ih => exact ih.stepped updated

theorem matched (h : script.Unretyped) : script.Matched := by
  induction h with
  | fresh name => exact fun _ _ h => by cases h
  | built places built =>
    refine (Loaded.keeps_of_build (P := fun s => s.Reachable NodeBuilder.Declared ∧ s.Matched)
      (fun _ _ node _ => places node.type node.properties) ⟨.fresh _, fun _ _ h => by cases h⟩
      (fun script change hw hp hs => ?_) built).2
    exact ⟨hs.1.edited change hp, hs.2.edit hs.1.grounded hw hp⟩
  | edited change places keeps unretyped ih =>
    exact (ih.edit_iff unretyped.reachable.grounded change places).2 keeps
  | stepped unretyped updated ih =>
    exact ih.of_steady (steady_lasting.update updated unretyped.reachable.grounded)

/-- As long as nodes are placed with new value links, and no write to a node itself gives the default
of a bound link another type, every cell that is bound to a link that checks types declares the type
of its default. Whatever the host does next, this stays so exactly if it is not such a write: it is
carried out all the same. -/
theorem matched_edit (h : script.Unretyped) : script.Matched
    ∧ ∀ change : Edit β, change.Places NodeBuilder.Declared →
      ((script.edit change).Matched ↔ ¬ script.Retypes change) :=
  ⟨h.matched, fun change places => h.matched.edit_iff h.reachable.grounded change places⟩

end Unretyped

omit [Behavior β]

/-- How to come by a loop that starts at what a cell holds. -/
def tallying : List (Edit Standard) :=
  [.addNode rootGraph Standard.forLoopNode, .addNode rootGraph (Standard.cell "Integer" (.int 0)),
    .connectValue ⟨⟨0⟩, 0⟩ ⟨1⟩]

/-- A loop that starts at what a cell holds. -/
def tally : Script Standard := tallying.foldl edit (withRootName "root")

theorem tally_places : ∀ change ∈ tallying, change.Places NodeBuilder.Declared := by
  intro change hc
  simp only [tallying, List.mem_cons, List.not_mem_nil, or_false] at hc
  rcases hc with rfl | rfl | rfl
  · refine ⟨.link _ (.link _ (.link _ (.output _ (.output _ (.input _ (.action _ _)))))), ?_⟩
    exact Standard.unbound_of_mem_catalog (Standard.fixed Standard.forLoopNode)
      (List.mem_cons_of_mem _ List.mem_cons_self) []
  · exact ⟨.value _ _ _, List.forall_mem_nil _⟩
  · trivial

/-- Another number as the default is right, and a text is not. -/
theorem matched_edit_of_tally : tally.Unretyped ∧ tally.Matched
    ∧ (tally.edit (.setLocalProperty ⟨0⟩ "Start" (.int 5))).Matched
    ∧ ¬ (tally.edit (.setLocalProperty ⟨0⟩ "Start" (.string "x"))).Matched := by
  have hu : tally.Unretyped := by
    have hp := tally_places
    simp only [tallying, List.forall_mem_cons] at hp
    obtain ⟨hloop, hcell, hbind, -⟩ := hp
    exact .edited _ hbind id (.edited _ hcell id (.edited _ hloop id (.fresh "root")))
  have hown : tally.ownLink? ⟨0⟩ "Start" = some ⟨⟨0⟩, 0⟩ := by decide +kernel
  have hlink : (tally.link? ⟨⟨0⟩, 0⟩).map (fun link => (link.isChecked, link.bound, link.type))
      = some (true, [⟨1⟩], .int) := by decide +kernel
  obtain ⟨link, hl, hparts⟩ := Option.map_eq_some_iff.1 hlink
  simp only [Prod.mk.injEq] at hparts
  obtain ⟨hchecked, hbound, htype⟩ := hparts
  obtain ⟨hm, hedit⟩ := Unretyped.matched_edit hu
  refine ⟨hu, hm, (hedit (.setLocalProperty ⟨0⟩ "Start" (.int 5)) trivial).2 ?_,
    fun h => (hedit (.setLocalProperty ⟨0⟩ "Start" (.string "x")) trivial).1 h ?_⟩
  · rintro ⟨ref, link', hown', hl', -, -, hne⟩
    obtain rfl := Option.some.inj (hown.symm.trans hown')
    obtain rfl := Option.some.inj (hl.symm.trans hl')
    exact hne htype.symm
  · exact ⟨_, link, hown, hl, hchecked, by rw [hbound]; nofun, by rw [htype]; nofun⟩

/-- A host can come by a script whose loop starts at a number by its binding and at a text by its
default. -/
theorem not_matched_of_tally : ∃ script : Script Standard,
    script.Reachable NodeBuilder.Declared
      ∧ (tally.setProperty ⟨0⟩ "Start" (.string "x")).1 = false
      ∧ script = tally.edit (.setLocalProperty ⟨0⟩ "Start" (.string "x"))
      ∧ ∃ link cell, script.link? ⟨⟨0⟩, 0⟩ = some link ∧ link.isChecked = true
        ∧ ⟨1⟩ ∈ link.bound ∧ script.node? ⟨1⟩ = some cell ∧ cell.isValueNode = true
        ∧ cell.valueType = some .int ∧ link.type = .string := by
  have hr : (tally.edit (.setLocalProperty ⟨0⟩ "Start" (.string "x"))).Reachable
      NodeBuilder.Declared :=
    .edited _ trivial (.edits (.fresh "root") tally_places)
  have hlink : ((tally.edit (.setLocalProperty ⟨0⟩ "Start" (.string "x"))).link? ⟨⟨0⟩, 0⟩).map
      (fun link => (link.isChecked, link.bound, link.type)) = some (true, [⟨1⟩], .string) := by
    decide +kernel
  have hcell : ((tally.edit (.setLocalProperty ⟨0⟩ "Start" (.string "x"))).node? ⟨1⟩).map
      (fun cell => (cell.isValueNode, cell.valueType)) = some (true, some .int) := by
    decide +kernel
  obtain ⟨link, hl, hparts⟩ := Option.map_eq_some_iff.1 hlink
  obtain ⟨cell, hc, hdeclared⟩ := Option.map_eq_some_iff.1 hcell
  simp only [Prod.mk.injEq] at hparts hdeclared
  obtain ⟨hchecked, hbound, htype⟩ := hparts
  exact ⟨_, hr, by decide +kernel, rfl, link, cell, hl, hchecked,
    by rw [hbound]; exact List.mem_cons_self, hc, hdeclared.1, hdeclared.2, htype⟩

end Script

end FlowScript
