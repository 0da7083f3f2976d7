import FlowScript.Proofs.Saved

/-!
# Scripts that can be loaded again

A script of standard nodes is described by a definition that builds exactly if its bindings match
and its switches say that they have the outputs that are connected (`Script.Reachable.reloads_iff`).
-/

namespace FlowScript

/-- A switch says that it has the outputs of it that are connected. -/
def Script.Covered (script : Script Standard) : Prop :=
  ∀ o i, script.Connected o i → ∀ node, script.node? o.node = some node →
    node.type = coreType "Switch" → (o.index : Int) < (Standard.outputCount node.properties).toInt

namespace Script.Saved

variable {script : Script Standard} {keys : Keys} (h : script.Saved keys)

include h

/-! ## Links -/

theorem forall_links {P : LinkDef → Prop} :
    (∀ graph ∈ (script.definition keys).preorder, ∀ link ∈ graph.links, P link) ↔
      ∀ o i, script.Connected o i → P (script.linkDef (.ofScript script keys) (o, i)) := by
  rw [← List.forall_mem_flatMap, links_definition h.arena]
  have hperm := h.arena.perm_byGraph.flatMap_right (script.linkDefs (.ofScript script keys))
  rw [linkDefs_eq h.arena h.paired] at hperm
  simp only [hperm.mem_iff, List.forall_mem_map, Prod.forall, mem_connectionList]

theorem links_iff : (∀ graph ∈ (script.definition keys).preorder, ∀ link ∈ graph.links,
    ((script.definition keys).output? Standard.registry link.source link.output).isSome = true
      ∧ ((script.definition keys).input? Standard.registry link.target link.input).isSome = true) ↔
        script.Covered := by
  rw [h.forall_links]
  refine forall₂_congr fun o i => forall_congr' fun hc => ?_
  obtain ⟨ho, hi⟩ := h.paired.resolves hc
  obtain ⟨output, hout⟩ := Option.isSome_iff_exists.1 ho
  obtain ⟨input, hin⟩ := Option.isSome_iff_exists.1 hi
  obtain ⟨source, hs, hso⟩ := Option.bind_eq_some_iff.1 hout
  obtain ⟨target, ht, hti⟩ := Option.bind_eq_some_iff.1 hin
  have hdef : script.linkDef (.ofScript script keys) (o, i) =
      ⟨(Names.ofScript script keys).get o.node, output.name,
        (Names.ofScript script keys).get i.node, input.name⟩ := by
    simp only [linkDef, hout, hin, Option.elim_some]
  rw [hdef, h.output?_isSome hs hso, h.input?_eq ht hti, Option.isSome_some, and_iff_left rfl,
    Node.lt_relaid (List.getElem?_eq_some_iff.1 hso).1]
  simp only [hs, Option.some.injEq, forall_eq']

/-! ## Bindings -/

theorem forall_bindings {P : BindingDef → Prop} :
    (∀ graph ∈ (script.definition keys).preorder, ∀ binding ∈ graph.bindings, P binding) ↔
      ∀ ref, ∀ id ∈ script.bound ref, P (script.bindingDef (.ofScript script keys) (ref, id)) := by
  rw [← List.forall_mem_flatMap, bindings_definition h.arena]
  have hperm := h.arena.perm_byGraph.flatMap_right (script.bindingDefs (.ofScript script keys))
  rw [bindingDefs_eq h.arena, h.grounded.resolvedBindings_eq] at hperm
  simp only [hperm.mem_iff, List.forall_mem_map, Prod.forall, mem_bindingList]

theorem binding_leads {ref : ValueLinkRef} {id : NodeId} (hid : id ∈ script.bound ref) :
    ∃ link cell type again, script.link? ref = some link ∧ script.node? id = some cell
      ∧ cell.valueType = some type ∧ again.valueType = some type
      ∧ again.id = script.number id
      ∧ (script.definition keys).link? Standard.registry
        (script.bindingDef (.ofScript script keys) (ref, id)).node
        (script.bindingDef (.ofScript script keys) (ref, id)).link =
          some (⟨script.number ref.node, ref.index⟩, link.clear)
      ∧ (script.definition keys).node? Standard.registry
        (script.bindingDef (.ofScript script keys) (ref, id)).cell = some again := by
  obtain ⟨link, hl, -⟩ := link?_of_mem_bound hid
  obtain ⟨owner, ho, hlink⟩ := Option.bind_eq_some_iff.1 hl
  obtain ⟨cell, hc, hv⟩ := isCell_iff.1 (h.grounded.cells ref id hid)
  obtain ⟨type, htype⟩ := Option.isSome_iff_exists.1 ((h.native id cell hc).declaresCell.1 hv)
  obtain ⟨again, hagain, hnumber, hvalueType, -⟩ := h.find hc
  refine ⟨link, cell, type, again, hl, hc, htype, hvalueType.trans htype, hnumber, ?_, hagain⟩
  have hname : (script.bindingDef (.ofScript script keys) (ref, id)).link = link.name := by
    rw [bindingDef, hl, Option.elim_some]
  rw [hname]
  exact h.link?_eq ho hlink

theorem bindings_iff : (∀ graph ∈ (script.definition keys).preorder, ∀ binding ∈ graph.bindings,
    ∃ ref link cell type,
      (script.definition keys).link? Standard.registry binding.node binding.link = some (ref, link)
        ∧ (script.definition keys).node? Standard.registry binding.cell = some cell
        ∧ cell.valueType = some type ∧ (link.isChecked = true → link.type = type)) ↔
      script.Matched := by
  rw [h.forall_bindings]
  constructor
  · intro hall ref link hl hchecked id hid cell hc
    rw [← bound_of_link? hl] at hid
    obtain ⟨link', cell', type, again, hl', hc', htype, hagain, -, hlink, hnode⟩ :=
      h.binding_leads hid
    obtain rfl := Option.some.inj (hl.symm.trans hl')
    obtain rfl := Option.some.inj (hc.symm.trans hc')
    obtain ⟨_, link'', cell'', type', hlink', hnode', htype', hfits⟩ := hall ref id hid
    obtain ⟨-, rfl⟩ := Prod.mk.inj (Option.some.inj (hlink.symm.trans hlink'))
    obtain rfl := Option.some.inj (hnode.symm.trans hnode')
    obtain rfl := Option.some.inj (hagain.symm.trans htype')
    rw [htype, ← hfits hchecked]
    rfl
  · intro hm ref id hid
    obtain ⟨link, cell, type, again, hl, hc, htype, hagain, -, hlink, hnode⟩ := h.binding_leads hid
    refine ⟨_, _, again, type, hlink, hnode, hagain, fun hchecked => ?_⟩
    rw [bound_of_link? hl] at hid
    exact (Option.some.inj (htype.symm.trans (hm ref link hl hchecked id hid cell hc))).symm

/-- The bindings of a definition are those of the script, between the same nodes under their new
numbers. -/
theorem perm_bonds : ((script.definition keys).pieces.filterMap
    ((script.definition keys).bond? Standard.registry)).Perm
      (script.bindingList.map fun bond =>
        (⟨script.number bond.1.node, bond.1.index⟩, script.number bond.2)) := by
  -- Nodes and links bind nothing.
  have hjoins : ∀ graph : GraphDef,
      (GraphDef.joins graph).filterMap ((script.definition keys).bond? Standard.registry) =
        graph.bindings.filterMap fun binding =>
          (script.definition keys).bond? Standard.registry (.binding binding) := by
    intro graph
    have hlinks : graph.links.filterMap
        ((script.definition keys).bond? Standard.registry ∘ Piece.link) = [] :=
      List.filterMap_eq_nil_iff.2 fun _ _ => rfl
    rw [GraphDef.joins, List.filterMap_append, List.filterMap_map, List.filterMap_map, hlinks,
      List.nil_append]
    rfl
  have hnodes : ((script.definition keys).entries.map Piece.node).filterMap
      ((script.definition keys).bond? Standard.registry) = [] := by
    rw [List.filterMap_map]
    exact List.filterMap_eq_nil_iff.2 fun _ _ => rfl
  have hpieces : (script.definition keys).pieces.filterMap
      ((script.definition keys).bond? Standard.registry) =
        ((script.definition keys).preorder.flatMap (·.bindings)).filterMap fun binding =>
          (script.definition keys).bond? Standard.registry (.binding binding) := by
    rw [GraphDef.pieces, List.filterMap_append, hnodes, List.nil_append, List.filterMap_flatMap,
      List.filterMap_flatMap]
    exact List.flatMap_congr fun graph _ => hjoins graph
  have hperm := h.arena.perm_byGraph.flatMap_right (script.bindingDefs (.ofScript script keys))
  rw [bindingDefs_eq h.arena, h.grounded.resolvedBindings_eq] at hperm
  rw [hpieces, bindings_definition h.arena]
  refine (hperm.filterMap _).trans (List.Perm.of_eq ?_)
  rw [List.filterMap_map, ← List.filterMap_eq_map]
  refine List.filterMap_congr fun bond hbond => ?_
  obtain ⟨link, cell, type, again, -, -, -, -, hnumber, hlink, hnode⟩ :=
    h.binding_leads (mem_bindingList.1 hbond)
  rw [Function.comp, GraphDef.bond?_eq_some hlink hnode, hnumber]
  rfl

/-- What a definition binds to a value link, if it binds anything to it, is what is bound to a value
link of the script. -/
theorem held_cases (ref : ValueLinkRef) :
    (script.definition keys).held Standard.registry (script.definition keys).pieces ref = []
      ∨ ∃ old link, script.link? old = some link ∧ ref = ⟨script.number old.node, old.index⟩
        ∧ ((script.definition keys).held Standard.registry (script.definition keys).pieces ref).Perm
          (link.bound.map script.number) := by
  have hperm := (h.perm_bonds.filter (·.1 = ref)).map (·.2)
  rw [List.filter_map, List.map_map] at hperm
  by_cases hnone : script.bindingList.filter ((fun bond : ValueLinkRef × NodeId =>
      decide (bond.1 = ref)) ∘ fun bond =>
        (⟨script.number bond.1.node, bond.1.index⟩, script.number bond.2)) = []
  · rw [hnone, List.map_nil] at hperm
    exact .inl hperm.eq_nil
  · obtain ⟨⟨old, id⟩, hbond⟩ := List.exists_mem_of_ne_nil _ hnone
    obtain ⟨hlisted, heq⟩ := List.mem_filter.1 hbond
    obtain rfl := of_decide_eq_true heq
    obtain ⟨link, hl, -⟩ := link?_of_mem_bound (mem_bindingList.1 hlisted)
    obtain ⟨owner, ho, -⟩ := Option.bind_eq_some_iff.1 hl
    refine .inr ⟨old, link, hl, rfl, hperm.trans (List.Perm.of_eq ?_)⟩
    rw [← bound_of_link? hl, ← h.arena.filter_bindingList, List.map_map]
    -- No two nodes get one number, so that bindings of two value links do not run together.
    refine congrArg (List.map _) (List.filter_congr fun bond _ => ?_)
    refine decide_eq_decide.2 ⟨fun heq => ?_, fun heq => heq ▸ rfl⟩
    obtain ⟨hnode, hindex⟩ := ValueLinkRef.mk.inj heq
    have hlive : old.node ∈ script.nodes.map (·.id) :=
      live_of_node? ho
    exact congrArg₂ ValueLinkRef.mk ((h.arena.number_inj hlive).1 hnode.symm).symm hindex

theorem once (ref : ValueLinkRef) : ((script.definition keys).held Standard.registry
    (script.definition keys).pieces ref).Nodup := by
  rcases h.held_cases ref with hnone | ⟨old, link, hl, -, hperm⟩
  · rw [hnone]
    exact List.nodup_nil
  · have hnodup := h.grounded.nodup old
    rw [bound_of_link? hl] at hnodup
    refine hperm.nodup_iff.2 (hnodup.map_on fun a ha b _ heq => ?_)
    obtain ⟨cell, hc, -⟩ := isCell_iff.1 (h.grounded.cells old a (by rwa [bound_of_link? hl]))
    exact (h.arena.number_inj (live_of_node? hc)).1 heq

theorem single {key name : String} {ref : ValueLinkRef} {again : ValueLink}
    (hl : (script.definition keys).link? Standard.registry key name = some (ref, again))
    (hs : again.allowsMultiple = false) :
    ((script.definition keys).held Standard.registry (script.definition keys).pieces ref).length
      ≤ 1 := by
  rcases h.held_cases ref with hnone | ⟨old, link, hold, rfl, hperm⟩
  · rw [hnone]
    exact Nat.zero_le _
  · obtain ⟨owner, ho, hlink⟩ := Option.bind_eq_some_iff.1 hold
    obtain rfl := GraphDef.link?_unique (h.link?_eq ho hlink) hl
    rw [hperm.length_eq, List.length_map]
    exact h.grounded.single old link hold hs

theorem buildable_iff : (script.definition keys).Buildable Standard.registry ↔
    script.Matched ∧ script.Covered := by
  rw [← h.links_iff, ← h.bindings_iff]
  constructor
  · exact fun hb => ⟨hb.bindings, hb.links⟩
  · rintro ⟨bindings, links⟩
    have hbrought : ∀ ref, (script.definition keys).brought Standard.registry ref = [] :=
      GraphDef.brought_eq_nil Standard.places_declared
    refine ⟨nodup_keys h.arena h.keys, ?_, links, bindings, h.once, fun _ _ _ _ => h.single,
      fun ref id _ => ?_, fun _ _ ref _ _ _ _ => ?_⟩
    · rw [entries_definition h.arena, List.forall_mem_map]
      exact fun node hn => h.accepted node (h.arena.perm_byGraph.mem_iff.1 hn)
    · rw [hbrought]
      exact List.not_mem_nil
    · rw [hbrought]
      exact List.forall_mem_nil _

end Script.Saved

namespace Script

/-- A script of standard nodes can be saved and loaded again exactly if its checked bindings match
and its switches say that they have the outputs that are connected. -/
theorem Reachable.reloads_iff {script : Script Standard}
    (h : script.Reachable Standard.Instantiated) {keys : Keys} (hk : (Keyed.keys keys).Nodup) :
    (∃ loaded, (script.definition keys).build Standard.registry = .ok loaded) ↔
      script.Matched ∧ script.Covered := by
  rw [(GraphDef.build_answers Standard.places_made _).isOk_iff, ← GraphDef.permits_iff,
    GraphDef.permits_pieces]
  exact (Saved.ofReachable h hk).buildable_iff

/-- How to come by a dial whose last output is connected. -/
def dialling : List (Edit Standard) :=
  [.addNode rootGraph (Standard.switchNode [("OutputCount", .int 3)]),
    .addNode rootGraph Standard.toggleNode, .connect ⟨⟨0⟩, 2⟩ ⟨⟨1⟩, 0⟩]

/-- A dial with three outputs, the last of which is connected. -/
def dial : Script Standard := dialling.foldl edit (withRootName "root")

/-- The dial after it was told that it has one output. -/
def narrowed : Script Standard := dial.edit (.setProperty ⟨0⟩ "OutputCount" (.int 1))

theorem dial_reachable : dial.Reachable Standard.Instantiated := by
  refine .edits (.fresh "root") fun change hc => ?_
  simp only [dialling, List.mem_cons, List.not_mem_nil, or_false] at hc
  rcases hc with rfl | rfl | rfl
  · exact ⟨coreType "Switch", [("OutputCount", .int 3)], rfl⟩
  · exact ⟨coreType "Toggle", [], rfl⟩
  · trivial

theorem narrowed_reachable : narrowed.Reachable Standard.Instantiated :=
  .edited (.setProperty ⟨0⟩ "OutputCount" (.int 1)) trivial dial_reachable

/-- The dial can be loaded again, but not once it says that it has one output. -/
theorem reloads_iff_of_dial : dial.Matched ∧ dial.Covered ∧ ¬ narrowed.Covered
    ∧ (∃ loaded, (dial.definition []).build Standard.registry = .ok loaded)
    ∧ ¬ ∃ loaded, (narrowed.definition []).build Standard.registry = .ok loaded := by
  have hbuilt : ∃ loaded, (dial.definition []).build Standard.registry = .ok loaded :=
    exists_ok_of_isSome (by decide +kernel)
  have hkeys : (Keyed.keys ([] : Keys)).Nodup := List.nodup_nil
  obtain ⟨hm, hc⟩ := (Reachable.reloads_iff dial_reachable hkeys).1 hbuilt
  have hnot : ¬ narrowed.Covered := by
    intro hcovered
    have hconnected : narrowed.Connected ⟨⟨0⟩, 2⟩ ⟨⟨1⟩, 0⟩ := by
      unfold Connected
      decide +kernel
    have hswitch : (narrowed.node? ⟨0⟩).map (fun node =>
        (node.type, (Standard.outputCount node.properties).toInt)) =
          some (coreType "Switch", 1) := by
      decide +kernel
    obtain ⟨node, hn, hparts⟩ := Option.map_eq_some_iff.1 hswitch
    obtain ⟨htype, hcount⟩ := Prod.mk.inj hparts
    have hlt := hcovered _ _ hconnected node hn htype
    rw [hcount] at hlt
    exact absurd hlt (by decide)
  exact ⟨hm, hc, hnot, hbuilt, fun h =>
    hnot ((Reachable.reloads_iff narrowed_reachable hkeys).1 h).2⟩

/-- A switch can be told that it has fewer outputs than are connected. It keeps them, and its script
cannot be loaded again. -/
theorem not_reloads_of_dial : narrowed.Reachable Standard.Instantiated
    ∧ (dial.setProperty ⟨0⟩ "OutputCount" (.int 1)).1 = true
    ∧ narrowed.Connected ⟨⟨0⟩, 2⟩ ⟨⟨1⟩, 0⟩
    ∧ (narrowed.definition []).build Standard.registry =
      .error (.unknownLink "node:0" "Out3") := by
  refine ⟨narrowed_reachable, rfl, ?_, rfl⟩
  unfold Connected
  decide +kernel

end Script

end FlowScript
