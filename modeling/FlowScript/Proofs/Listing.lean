import FlowScript.Definition.Export
import FlowScript.Proofs.Arena
import FlowScript.Proofs.Bindings
import FlowScript.Proofs.Pairing

/-!
# Listing what is joined

All connections of a script make up one list, in the order in which they are listed at its outputs,
and all bindings another. From these lists each output and each value link has its own back
(`filter_listing`), and the links and bindings that describe a script are read off them one by one
(`linkDefs_eq`, `bindingDefs_eq`).
-/

namespace FlowScript

variable {β : Type}

/-- All that is listed at several places, with the place where it is listed. -/
def listing {ρ τ : Type} (refs : List ρ) (f : ρ → List τ) : List (ρ × τ) :=
  refs.flatMap fun ref => (f ref).map (ref, ·)

section listing

variable {ρ τ : Type} {refs : List ρ} {f : ρ → List τ}

theorem mem_listing {ref : ρ} {item : τ} :
    (ref, item) ∈ listing refs f ↔ ref ∈ refs ∧ item ∈ f ref := by
  simp only [listing, List.mem_flatMap, List.mem_map, Prod.mk.injEq]
  constructor
  · rintro ⟨r, hr, t, ht, rfl, rfl⟩
    exact ⟨hr, ht⟩
  · rintro ⟨hr, ht⟩
    exact ⟨ref, hr, item, ht, rfl, rfl⟩

theorem nodup_listing (hn : refs.Nodup) (hf : ∀ ref, (f ref).Nodup) : (listing refs f).Nodup := by
  refine List.nodup_flatMap.2 ⟨fun ref _ => (hf ref).map fun _ _ h => (Prod.mk.inj h).2, ?_⟩
  refine hn.imp fun hne item hitem hitem' => ?_
  obtain ⟨_, -, rfl⟩ := List.mem_map.1 hitem
  obtain ⟨_, -, heq⟩ := List.mem_map.1 hitem'
  exact hne (Prod.mk.inj heq).1.symm

/-- Going through the indexes of a list is going through the list. -/
theorem flatMap_range {α γ : Type} : ∀ {l : List α} {f : Nat → List γ} {g : α → List γ},
    (∀ k a, l[k]? = some a → f k = g a) → (List.range l.length).flatMap f = l.flatMap g
  | [], _, _, _ => rfl
  | a :: l, f, g, h => by
    rw [List.length_cons, List.range_succ_eq_map, List.flatMap_cons, List.flatMap_cons,
      List.flatMap_map, h 0 a rfl, flatMap_range fun k a hk => h (k + 1) a hk]

variable [DecidableEq ρ]

/-- What is listed at one place, read off the list of all. -/
theorem filter_listing (hn : refs.Nodup) {ref : ρ} (hout : ref ∉ refs → f ref = []) :
    ((listing refs f).filter (·.1 = ref)).map (·.2) = f ref := by
  have hself : ∀ r, (((f r).map (r, ·)).filter (·.1 = ref)).map (·.2) =
      if r = ref then f r else [] := by
    intro r
    rw [List.filter_map, List.map_map]
    by_cases h : r = ref
    · simp [h, Function.comp_def]
    · simp [h, Function.comp_def]
  induction refs with
  | nil => exact (hout List.not_mem_nil).symm
  | cons r refs ih =>
    rw [List.nodup_cons] at hn
    have hcons : listing (r :: refs) f = (f r).map (r, ·) ++ listing refs f := rfl
    rw [hcons, List.filter_append, List.map_append, hself]
    by_cases h : r = ref
    · subst h
      have hrest : (listing refs f).filter (·.1 = r) = [] := by
        rw [List.filter_eq_nil_iff]
        rintro ⟨r', t⟩ hmem heq
        obtain rfl : r' = r := by simpa using heq
        exact hn.1 (mem_listing.1 hmem).1
      rw [if_pos rfl, hrest, List.map_nil, List.append_nil]
    · rw [if_neg h, List.nil_append, ih hn.2 fun hm => hout fun hm' =>
        hm ((List.mem_cons.1 hm').resolve_left (Ne.symm h))]

end listing

namespace Script

/-- The references to all links of a kind, node by node. -/
def refs {ρ : Type} (script : Script β) (count : Node β → Nat) (mk : NodeId → Nat → ρ) : List ρ :=
  script.nodes.flatMap fun node => (List.range (count node)).map (mk node.id)

/-- All connections, as they are listed at the outputs. -/
def connectionList (script : Script β) : List (OutputRef × InputRef) :=
  listing (script.refs (·.outputs.length) .mk) script.targets

/-- All bindings, as they are listed at the value links. -/
def bindingList (script : Script β) : List (ValueLinkRef × NodeId) :=
  listing (script.refs (·.links.length) .mk) script.bound

/-- The bindings that name a node of the script, as they are listed at the value links. -/
def resolvedBindings (script : Script β) : List (ValueLinkRef × NodeId) :=
  script.bindingList.filter (script.containsNode ·.2)

section refs

variable {script : Script β} {ρ : Type} {count : Node β → Nat} {mk : NodeId → Nat → ρ}

theorem mem_refs {ref : ρ} : ref ∈ script.refs count mk ↔
    ∃ node ∈ script.nodes, ∃ k < count node, mk node.id k = ref := by
  simp only [refs, List.mem_flatMap, List.mem_map, List.mem_range]

theorem nodup_refs (hn : (script.nodes.map (·.id)).Nodup)
    (hmk : ∀ {id k id' k'}, mk id k = mk id' k' → id = id' ∧ k = k') :
    (script.refs count mk).Nodup := by
  refine List.nodup_flatMap.2 ⟨fun _ _ => List.nodup_range.map fun _ _ h => (hmk h).2, ?_⟩
  refine (List.pairwise_map.1 hn).imp fun hne ref href href' => ?_
  obtain ⟨_, -, rfl⟩ := List.mem_map.1 href
  obtain ⟨_, -, heq⟩ := List.mem_map.1 href'
  exact hne (hmk heq).1.symm

end refs

/-- Describes a connection. -/
def linkDef (script : Script β) (names : Names) (wire : OutputRef × InputRef) : LinkDef :=
  ⟨names.get wire.1.node, (script.output? wire.1).elim "" (·.name),
    names.get wire.2.node, (script.input? wire.2).elim "" (·.name)⟩

/-- Describes a binding. -/
def bindingDef (script : Script β) (names : Names) (held : ValueLinkRef × NodeId) : BindingDef :=
  ⟨names.get held.1.node, (script.link? held.1).elim "" (·.name), names.get held.2⟩

section lists

variable {script : Script β}

theorem output_mem_refs {o : OutputRef} (ho : (script.output? o).isSome = true) :
    o ∈ script.refs (·.outputs.length) .mk := by
  obtain ⟨output, ho⟩ := Option.isSome_iff_exists.1 ho
  obtain ⟨node, hn, hk⟩ := Option.bind_eq_some_iff.1 ho
  refine mem_refs.2 ⟨node, List.mem_of_find?_eq_some hn, o.index, ?_, ?_⟩
  · exact (List.getElem?_eq_some_iff.1 hk).1
  · rw [id_of_node? hn]

theorem link_mem_refs {ref : ValueLinkRef} (hl : (script.link? ref).isSome = true) :
    ref ∈ script.refs (·.links.length) .mk := by
  obtain ⟨link, hl⟩ := Option.isSome_iff_exists.1 hl
  obtain ⟨node, hn, hk⟩ := Option.bind_eq_some_iff.1 hl
  refine mem_refs.2 ⟨node, List.mem_of_find?_eq_some hn, ref.index, ?_, ?_⟩
  · exact (List.getElem?_eq_some_iff.1 hk).1
  · rw [id_of_node? hn]

theorem mem_connectionList {o : OutputRef} {i : InputRef} :
    (o, i) ∈ script.connectionList ↔ script.Connected o i :=
  mem_listing.trans (and_iff_right_of_imp fun hc => output_mem_refs (isSome_of_mem_targets hc))

theorem mem_bindingList {ref : ValueLinkRef} {id : NodeId} :
    (ref, id) ∈ script.bindingList ↔ id ∈ script.bound ref := by
  refine mem_listing.trans (and_iff_right_of_imp fun hid => ?_)
  obtain ⟨link, hl, -⟩ := link?_of_mem_bound hid
  exact link_mem_refs (by rw [hl, Option.isSome_some])

namespace Arena

variable (h : script.Arena)

include h

theorem filter_connectionList (o : OutputRef) :
    (script.connectionList.filter (·.1 = o)).map (·.2) = script.targets o := by
  refine filter_listing (nodup_refs h.nodup_nodes fun heq => OutputRef.mk.inj heq) fun hout => ?_
  rcases ho : script.output? o with _ | output
  · rw [targets, ho, Option.elim_none]
  · exact absurd (output_mem_refs (by rw [ho, Option.isSome_some])) hout

theorem filter_bindingList (ref : ValueLinkRef) :
    (script.bindingList.filter (·.1 = ref)).map (·.2) = script.bound ref := by
  refine filter_listing (nodup_refs h.nodup_nodes fun heq => ValueLinkRef.mk.inj heq) fun hout => ?_
  rcases hl : script.link? ref with _ | link
  · rw [bound, hl, Option.elim_none]
  · exact absurd (link_mem_refs (by rw [hl, Option.isSome_some])) hout

end Arena

/-- The connections that are listed at the outputs of a node. -/
def wires (script : Script β) (node : Node β) : List (OutputRef × InputRef) :=
  listing ((List.range node.outputs.length).map (.mk node.id)) script.targets

/-- The bindings that are listed at the value links of a node. -/
def holds (script : Script β) (node : Node β) : List (ValueLinkRef × NodeId) :=
  listing ((List.range node.links.length).map (.mk node.id)) script.bound

theorem connectionList_eq : script.connectionList = script.nodes.flatMap script.wires :=
  List.flatMap_assoc

theorem bindingList_eq : script.bindingList = script.nodes.flatMap script.holds :=
  List.flatMap_assoc

theorem linkDefs_node (ha : script.Arena) (hp : script.Paired) (names : Names) {node : Node β}
    (hn : node ∈ script.nodes) :
    script.linkDefs names node = (script.wires node).map (script.linkDef names) := by
  rw [wires, listing, List.map_flatMap, List.flatMap_map]
  refine (flatMap_range fun k output hk => ?_).symm
  have ho : script.output? ⟨node.id, k⟩ = some output := by
    rw [output?, ha.node?_eq hn, Option.bind_some, hk]
  rw [targets_of_output? ho, List.map_map, ← List.filterMap_eq_map]
  refine List.filterMap_congr fun i hi => ?_
  have hconnected : script.Connected ⟨node.id, k⟩ i := by
    rwa [Connected, targets_of_output? ho]
  obtain ⟨input, hinput⟩ := Option.isSome_iff_exists.1 (hp.resolves hconnected).2
  simp only [Function.comp, linkDef, ho, hinput, Option.elim_some, Option.map_some]

theorem linkDefs_eq (ha : script.Arena) (hp : script.Paired) (names : Names) :
    script.nodes.flatMap (script.linkDefs names) =
      script.connectionList.map (script.linkDef names) := by
  rw [connectionList_eq, List.map_flatMap]
  exact List.flatMap_congr fun node hn => linkDefs_node ha hp names hn

/-- An entry describes a binding that names a node; the others are left out. -/
theorem bindingDefs_node (ha : script.Arena) (names : Names) {node : Node β}
    (hn : node ∈ script.nodes) : script.bindingDefs names node =
      ((script.holds node).filter (script.containsNode ·.2)).map (script.bindingDef names) := by
  rw [holds, listing, List.filter_flatMap, List.map_flatMap, List.flatMap_map]
  refine (flatMap_range fun k link hk => ?_).symm
  have hl : script.link? ⟨node.id, k⟩ = some link := by
    rw [link?, ha.node?_eq hn, Option.bind_some, hk]
  rw [bound_of_link? hl, List.filter_map, List.map_map]
  refine List.map_congr_left fun id _ => ?_
  simp only [Function.comp, bindingDef, hl, Option.elim_some]

theorem bindingDefs_eq (ha : script.Arena) (names : Names) :
    script.nodes.flatMap (script.bindingDefs names) =
      script.resolvedBindings.map (script.bindingDef names) := by
  rw [resolvedBindings, bindingList_eq, List.filter_flatMap, List.map_flatMap]
  exact List.flatMap_congr fun node hn => bindingDefs_node ha names hn

/-- Where bindings name cells, all of them are described. -/
theorem Grounded.resolvedBindings_eq (hg : script.Grounded) :
    script.resolvedBindings = script.bindingList := by
  refine List.filter_eq_self.2 fun held hheld => ?_
  obtain ⟨cell, hc, -⟩ := isCell_iff.1 (hg.cells held.1 held.2 (mem_bindingList.1 hheld))
  rw [containsNode, hc, Option.isSome_some]

end lists

end Script

end FlowScript
