import FlowScript.Proofs.Shape
import Mathlib.Data.List.Basic

/-!
# Nested graphs

The graphs of a script form a tree: every graph but the root is listed by its parent, once and in
order of creation (`Nesting`). So a walk from a graph finds exactly what lies within it
(`mem_subtree`), and taking all of that out leaves a tree (`Nesting.pruned`).
-/

namespace FlowScript

variable {β : Type}

/-- The graph without its name and members. -/
def Graph.stem (graph : Graph) : Graph := { graph with name := "", nodes := [] }

theorem Graph.of_stem_eq {g g' : Graph} (h : g.stem = g'.stem) :
    g.id = g'.id ∧ g.parent = g'.parent ∧ g.subGraphs = g'.subGraphs := by
  simp only [stem, Graph.mk.injEq] at h
  obtain ⟨hid, -, hparent, hsubs, -⟩ := h
  exact ⟨hid, hparent, hsubs⟩

/-- A graph lies within another if it is that graph or is listed by a graph within it. -/
inductive Within (graphs : List Graph) (outer : GraphId) : GraphId → Prop where
  | refl : Within graphs outer outer
  | listed {graph : Graph} {inner : GraphId} (within : Within graphs outer graph.id)
      (live : graph ∈ graphs) (lists : inner ∈ graph.subGraphs) : Within graphs outer inner

/-- Graphs form a tree, in order of creation: each but the root has a parent that is older, and
lists exactly the graphs whose parent it is. -/
structure Nesting (graphs : List Graph) : Prop where
  sorted : graphs.Pairwise (·.id.raw < ·.id.raw)
  root : rootGraph ∈ graphs.map (·.id)
  orphan : ∀ graph ∈ graphs, graph.parent = none ↔ graph.id = rootGraph
  older : ∀ graph ∈ graphs, ∀ parent, graph.parent = some parent →
    parent ∈ graphs.map (·.id) ∧ parent.raw < graph.id.raw
  listed : ∀ graph ∈ graphs,
    graph.subGraphs = (graphs.filter (·.parent = some graph.id)).map (·.id)

theorem find?_of_mem {α ι : Type} [DecidableEq ι] {key : α → ι} {l : List α}
    (hn : (l.map key).Nodup) {a : α} (ha : a ∈ l) : l.find? (key · = key a) = some a := by
  induction l with
  | nil => cases ha
  | cons b l ih =>
    rw [List.map_cons, List.nodup_cons] at hn
    rcases List.mem_cons.1 ha with rfl | ha
    · simp
    · have hne : key b ≠ key a := fun h => hn.1 (h ▸ List.mem_map_of_mem ha)
      rw [List.find?_cons_of_neg (by simpa using hne), ih hn.2 ha]

theorem eq_of_key {α ι : Type} [DecidableEq ι] {key : α → ι} {l : List α}
    (hn : (l.map key).Nodup) {a b : α} (ha : a ∈ l) (hb : b ∈ l) (heq : key a = key b) : a = b := by
  have hfind := find?_of_mem hn ha
  rw [heq, find?_of_mem hn hb] at hfind
  exact (Option.some.inj hfind).symm

theorem nodup_of_sorted {α ι : Type} {key : α → ι} (raw : ι → Nat) {l : List α}
    (h : l.Pairwise fun a b => raw (key a) < raw (key b)) : (l.map key).Nodup := by
  rw [List.Nodup, List.pairwise_map]
  refine h.imp fun hlt heq => ?_
  rw [heq] at hlt
  exact Nat.lt_irrefl _ hlt

namespace Within

variable {graphs : List Graph} {a b c : GraphId}

theorem trans (hab : Within graphs a b) (hbc : Within graphs b c) : Within graphs a c := by
  induction hbc with
  | refl => exact hab
  | listed within live lists ih => exact ih.listed live lists

/-- What lies within a graph is that graph or lies within one that it lists. -/
theorem cases_top (h : Within graphs a b) :
    b = a ∨ ∃ graph ∈ graphs, graph.id = a ∧ ∃ sub ∈ graph.subGraphs, Within graphs sub b := by
  induction h with
  | refl => exact .inl rfl
  | listed within live lists ih =>
    rcases ih with heq | ⟨graph, hg, hid, sub, hsub, hw⟩
    · exact .inr ⟨_, live, heq, _, lists, .refl⟩
    · exact .inr ⟨graph, hg, hid, sub, hsub, hw.listed live lists⟩

end Within

/-! ## Changing graphs in place -/

section map

variable {f : Graph → Graph} (hid : ∀ graph, (f graph).id = graph.id)

include hid

theorem Graph.map_ids (graphs : List Graph) : (graphs.map f).map (·.id) = graphs.map (·.id) := by
  rw [List.map_map]
  exact List.map_congr_left fun graph _ => hid graph

/-- The graphs with a parent are the same ones as long as the parents are. -/
theorem Graph.map_children (hparent : ∀ graph, (f graph).parent = graph.parent)
    (graphs : List Graph) (b : GraphId) : ((graphs.map f).filter (·.parent = some b)).map (·.id) =
      (graphs.filter (·.parent = some b)).map (·.id) := by
  rw [List.filter_map, List.map_map]
  simp only [Function.comp_def, hparent, hid]

end map

namespace Nesting

variable {graphs : List Graph} (h : Nesting graphs)

theorem map_iff {f : Graph → Graph} (hf : ∀ graph, (f graph).stem = graph.stem) :
    Nesting (graphs.map f) ↔ Nesting graphs := by
  have hid : ∀ graph, (f graph).id = graph.id := fun graph => (Graph.of_stem_eq (hf graph)).1
  have hparent : ∀ graph, (f graph).parent = graph.parent :=
    fun graph => (Graph.of_stem_eq (hf graph)).2.1
  have hsubs : ∀ graph, (f graph).subGraphs = graph.subGraphs :=
    fun graph => (Graph.of_stem_eq (hf graph)).2.2
  have hids := Graph.map_ids hid graphs
  have hchildren := Graph.map_children hid hparent graphs
  constructor
  · rintro ⟨sorted, root, orphan, older, listed⟩
    simp only [List.pairwise_map, List.forall_mem_map, hids, hid, hparent, hsubs]
      at sorted root orphan older listed
    refine ⟨sorted, root, orphan, older, fun graph hg => ?_⟩
    rw [listed graph hg, hchildren]
  · rintro ⟨sorted, root, orphan, older, listed⟩
    constructor <;>
      simp only [List.pairwise_map, List.forall_mem_map, hids, hid, hparent, hsubs]
    · exact sorted
    · exact root
    · exact orphan
    · exact older
    · intro graph hg
      rw [listed graph hg, hchildren]

/-- Only what a tree is made of counts, not names and members. -/
theorem of_stems {graphs' : List Graph} (hs : graphs'.map Graph.stem = graphs.map Graph.stem)
    (h : Nesting graphs) : Nesting graphs' := by
  have hstem : ∀ graph : Graph, graph.stem.stem = graph.stem := fun _ => rfl
  rw [← map_iff hstem, hs, map_iff hstem]
  exact h

include h

theorem nodup : (graphs.map (·.id)).Nodup := nodup_of_sorted GraphId.raw h.sorted

theorem find?_eq {graph : Graph} (hg : graph ∈ graphs) :
    graphs.find? (·.id = graph.id) = some graph :=
  find?_of_mem h.nodup hg

theorem eq_of_id {g g' : Graph} (hg : g ∈ graphs) (hg' : g' ∈ graphs) (heq : g.id = g'.id) :
    g = g' :=
  eq_of_key h.nodup hg hg' heq

/-- A graph is listed by its parent and by no other graph. -/
theorem mem_subGraphs {graph : Graph} (hg : graph ∈ graphs) {sub : GraphId} :
    sub ∈ graph.subGraphs ↔ ∃ inner ∈ graphs, inner.id = sub ∧ inner.parent = some graph.id := by
  rw [h.listed graph hg]
  simp only [List.mem_map, List.mem_filter, decide_eq_true_eq]
  constructor
  · rintro ⟨inner, ⟨hi, hp⟩, hid⟩
    exact ⟨inner, hi, hid, hp⟩
  · rintro ⟨inner, hi, hid, hp⟩
    exact ⟨inner, ⟨hi, hp⟩, hid⟩

theorem lt_of_listed {graph : Graph} (hg : graph ∈ graphs) {sub : GraphId}
    (hs : sub ∈ graph.subGraphs) : graph.id.raw < sub.raw := by
  obtain ⟨inner, hi, rfl, hp⟩ := (h.mem_subGraphs hg).1 hs
  exact (h.older inner hi graph.id hp).2

theorem le_of_within {a b : GraphId} (hw : Within graphs a b) : a.raw ≤ b.raw := by
  induction hw with
  | refl => exact Nat.le_refl _
  | listed within live lists ih =>
    have hlt := h.lt_of_listed live lists
    omega

/-- What lies within a graph other than itself has a parent that lies within it too. -/
theorem parent_within {a : GraphId} {graph : Graph} (hg : graph ∈ graphs)
    (hw : Within graphs a graph.id) (hne : graph.id ≠ a) :
    ∃ parent, graph.parent = some parent ∧ Within graphs a parent := by
  generalize hid : graph.id = b at hw
  cases hw with
  | refl => exact absurd hid hne
  | listed within live lists =>
    obtain ⟨inner, hi, heq, hp⟩ := (h.mem_subGraphs live).1 lists
    obtain rfl := h.eq_of_id hi hg (heq.trans hid.symm)
    exact ⟨_, hp, within⟩

theorem within_iff {graph : Graph} (hg : graph ∈ graphs) {a b : GraphId}
    (hp : graph.parent = some b) :
    Within graphs a graph.id ↔ Within graphs a b ∨ graph.id = a := by
  constructor
  · intro hw
    by_cases heq : graph.id = a
    · exact .inr heq
    · obtain ⟨b', hb', hw'⟩ := h.parent_within hg hw heq
      obtain rfl := Option.some.inj (hp.symm.trans hb')
      exact .inl hw'
  · rintro (hw | rfl)
    · obtain ⟨outer, ho, rfl⟩ := List.mem_map.1 (h.older graph hg b hp).1
      exact hw.listed ho ((h.mem_subGraphs ho).2 ⟨graph, hg, rfl, hp⟩)
    · exact .refl

theorem eq_root_of_within {a : GraphId} (hw : Within graphs a rootGraph) : a = rootGraph := by
  have hle := h.le_of_within hw
  rcases a with ⟨raw⟩
  obtain rfl : raw = 0 := Nat.le_zero.1 hle
  rfl

theorem live_of_within {a b : GraphId} (ha : a ∈ graphs.map (·.id)) (hw : Within graphs a b) :
    b ∈ graphs.map (·.id) := by
  cases hw with
  | refl => exact ha
  | listed within live lists =>
    obtain ⟨inner, hi, rfl, -⟩ := (h.mem_subGraphs live).1 lists
    exact List.mem_map_of_mem hi

theorem within_root {graph : Graph} (hg : graph ∈ graphs) : Within graphs rootGraph graph.id := by
  generalize hn : graph.id.raw = n
  induction n using Nat.strongRecOn generalizing graph with
  | ind n ih =>
    rcases hp : graph.parent with _ | parent
    · rw [(h.orphan graph hg).1 hp]
      exact .refl
    · obtain ⟨hlive, hlt⟩ := h.older graph hg parent hp
      obtain ⟨outer, ho, rfl⟩ := List.mem_map.1 hlive
      have hlists : graph.id ∈ outer.subGraphs := (h.mem_subGraphs ho).2 ⟨graph, hg, rfl, hp⟩
      exact (ih outer.id.raw (by omega) ho rfl).listed ho hlists

/-! ## Walking down -/

/-- Of two graphs that one graph lists, neither lies within the other. -/
theorem siblings {graph : Graph} (hg : graph ∈ graphs) :
    graph.subGraphs.Pairwise fun a b => ¬ Within graphs a b ∧ ¬ Within graphs b a := by
  have apart : ∀ a ∈ graph.subGraphs, ∀ b ∈ graph.subGraphs, a ≠ b → ¬ Within graphs a b := by
    intro a ha b hb hne hw
    obtain ⟨inner, hi, rfl, hp⟩ := (h.mem_subGraphs hg).1 hb
    have hle := h.le_of_within (((h.within_iff hi hp).1 hw).resolve_right hne.symm)
    have hlt := h.lt_of_listed hg ha
    omega
  have hsorted : graph.subGraphs.Pairwise (· ≠ ·) := by
    rw [h.listed graph hg]
    exact h.nodup.sublist (List.filter_sublist.map _)
  refine List.Pairwise.imp_of_mem ?_ hsorted
  intro a b ha hb hne
  exact ⟨apart a ha b hb hne, apart b hb a ha hne.symm⟩

section below

variable {graph : Graph} (hg : graph ∈ graphs) {stack : List GraphId}

include hg

/-- What lies within a graph or a stack is the graph, or lies within what it lists or the stack. -/
theorem within_cons_iff {b : GraphId} : (∃ a ∈ graph.id :: stack, Within graphs a b) ↔
    b = graph.id ∨ ∃ a ∈ graph.subGraphs ++ stack, Within graphs a b := by
  constructor
  · rintro ⟨a, ha, hw⟩
    rcases List.mem_cons.1 ha with rfl | ha
    · rcases hw.cases_top with rfl | ⟨g, hg', hid, sub, hs, hsub⟩
      · exact .inl rfl
      · obtain rfl := h.eq_of_id hg' hg hid
        exact .inr ⟨sub, List.mem_append_left _ hs, hsub⟩
    · exact .inr ⟨a, List.mem_append_right _ ha, hw⟩
  · rintro (rfl | ⟨a, ha, hw⟩)
    · exact ⟨graph.id, List.mem_cons_self, .refl⟩
    · rcases List.mem_append.1 ha with ha | ha
      · exact ⟨graph.id, List.mem_cons_self, (Within.listed .refl hg ha).trans hw⟩
      · exact ⟨a, List.mem_cons_of_mem _ ha, hw⟩

variable (hid : ∀ a ∈ stack, ¬ Within graphs graph.id a ∧ ¬ Within graphs a graph.id)

include hid

/-- A graph lies neither within what it lists nor within what it is apart from. -/
theorem not_within_below : ¬ ∃ a ∈ graph.subGraphs ++ stack, Within graphs a graph.id := by
  rintro ⟨a, ha, hw⟩
  rcases List.mem_append.1 ha with ha | ha
  · have hle := h.le_of_within hw
    have hlt := h.lt_of_listed hg ha
    omega
  · exact (hid a ha).2 hw

/-- What a graph lists is apart from each other and from what the graph is apart from. -/
theorem apart_below
    (hstack : stack.Pairwise fun a b => ¬ Within graphs a b ∧ ¬ Within graphs b a) :
    (graph.subGraphs ++ stack).Pairwise fun a b => ¬ Within graphs a b ∧ ¬ Within graphs b a := by
  refine List.pairwise_append.2 ⟨h.siblings hg, hstack, fun sub hs a ha => ?_⟩
  have hsub : Within graphs graph.id sub := .listed .refl hg hs
  refine ⟨fun hw => (hid a ha).1 (hsub.trans hw), fun hw => ?_⟩
  obtain ⟨inner, hi, rfl, hp⟩ := (h.mem_subGraphs hg).1 hs
  rcases (h.within_iff hi hp).1 hw with hw' | heq
  · exact (hid a ha).2 hw'
  · exact (hid a ha).1 (heq ▸ hsub)

end below

/-! ## Bounds -/

/-- What holds of a graph if it holds of all that it lists holds of every graph. -/
theorem bottom_up {P : GraphId → Prop}
    (step : ∀ graph ∈ graphs, (∀ sub ∈ graph.subGraphs, P sub) → P graph.id) :
    ∀ graph ∈ graphs, P graph.id := by
  have hbound : ∀ l : List Graph, ∃ bound, ∀ graph ∈ l, graph.id.raw < bound := by
    intro l
    induction l with
    | nil => exact ⟨0, List.forall_mem_nil _⟩
    | cons graph l ih =>
      obtain ⟨bound, hb⟩ := ih
      refine ⟨graph.id.raw + bound + 1, List.forall_mem_cons.2 ⟨by omega, fun g hg => ?_⟩⟩
      have hlt := hb g hg
      omega
  obtain ⟨bound, hb⟩ := hbound graphs
  intro graph hg
  -- Ids get larger on the way down.
  generalize hn : bound - graph.id.raw = n
  induction n using Nat.strongRecOn generalizing graph with
  | ind n ih =>
    refine step graph hg fun sub hs => ?_
    obtain ⟨inner, hi, rfl, -⟩ := (h.mem_subGraphs hg).1 hs
    have hlt := h.lt_of_listed hg hs
    have hlt' := hb inner hi
    exact ih (bound - inner.id.raw) (by omega) inner hi rfl

omit h in
/-- So many graphs at most lie within a graph. -/
def AtMost (graphs : List Graph) (fuel : Nat) (id : GraphId) : Prop :=
  ∀ ids : List GraphId, ids.Nodup → (∀ b ∈ ids, Within graphs id b) → ids.length ≤ fuel

omit h in
theorem AtMost.pos {fuel : Nat} {id : GraphId} (hf : AtMost graphs fuel id) : 0 < fuel :=
  hf [id] (List.pairwise_singleton _ id) (List.forall_mem_singleton.2 .refl)

/-- There are fewer graphs within what a graph lists than within the graph. -/
theorem AtMost.sub {fuel : Nat} {graph : Graph} (hf : AtMost graphs (fuel + 1) graph.id)
    (hg : graph ∈ graphs) {sub : GraphId} (hs : sub ∈ graph.subGraphs) :
    AtMost graphs fuel sub := by
  intro ids hn hw
  have hcons := hf (graph.id :: ids) (List.nodup_cons.2 ⟨fun hm => ?_, hn⟩)
    (List.forall_mem_cons.2 ⟨.refl, fun b hb => (Within.listed .refl hg hs).trans (hw b hb)⟩)
  · exact Nat.le_of_succ_le_succ hcons
  · have hle := h.le_of_within (hw _ hm)
    have hlt := h.lt_of_listed hg hs
    omega

theorem atMost {id : GraphId} (hid : id ∈ graphs.map (·.id)) : AtMost graphs graphs.length id := by
  intro ids hn hw
  have hsub : ids ⊆ graphs.map (·.id) := fun b hb => h.live_of_within hid (hw b hb)
  have hle := hn.length_le_of_subset hsub
  rwa [List.length_map] at hle

/-! ## Growing and pruning -/

omit h in
theorem single (name : String) : Nesting [{ id := rootGraph, name := name, parent := none }] where
  sorted := List.pairwise_singleton _ _
  root := List.mem_singleton.2 rfl
  orphan := by simp
  older := by simp
  listed := by simp

theorem extended {parent id : GraphId} (hp : parent ∈ graphs.map (·.id))
    (hnew : ∀ graph ∈ graphs, graph.id.raw < id.raw) (name : String) :
    Nesting ((graphs.map fun graph => if graph.id = parent then graph.addSubGraph id else graph)
      ++ [{ id := id, name := name, parent := some parent }]) := by
  have hlt : ∀ b ∈ graphs.map (·.id), b.raw < id.raw := by
    rw [List.forall_mem_map]
    exact hnew
  generalize hf : (fun graph : Graph =>
    if graph.id = parent then graph.addSubGraph id else graph) = f
  have hid : ∀ graph, (f graph).id = graph.id := by
    intro graph
    rw [← hf]
    simp only
    split <;> rfl
  have hparent : ∀ graph, (f graph).parent = graph.parent := by
    intro graph
    rw [← hf]
    simp only
    split <;> rfl
  have hids := Graph.map_ids hid graphs
  have hchildren := Graph.map_children hid hparent graphs
  constructor
  · rw [List.pairwise_append, List.pairwise_map]
    refine ⟨by simpa only [hid] using h.sorted, List.pairwise_singleton _ _, ?_⟩
    simpa only [List.forall_mem_map, List.forall_mem_singleton, hid] using hnew
  · rw [List.map_append, hids]
    exact List.mem_append_left _ h.root
  · simp only [List.forall_mem_append, List.forall_mem_map, List.forall_mem_singleton, hid, hparent]
    refine ⟨h.orphan, iff_of_false nofun ?_⟩
    rintro rfl
    exact Nat.lt_irrefl _ (hlt _ h.root)
  · rw [List.map_append, hids]
    simp only [List.forall_mem_append, List.forall_mem_map, List.forall_mem_singleton, hid, hparent]
    refine ⟨fun graph hg b hb => ?_, fun b hb => ?_⟩
    · obtain ⟨hlive, hlt⟩ := h.older graph hg b hb
      exact ⟨List.mem_append_left _ hlive, hlt⟩
    · obtain rfl := Option.some.inj hb
      exact ⟨List.mem_append_left _ hp, hlt _ hp⟩
  · simp only [List.forall_mem_append, List.forall_mem_map, List.forall_mem_singleton, hid,
      List.filter_append, List.map_append, hchildren]
    refine ⟨fun graph hg => ?_, ?_⟩
    · rw [← h.listed graph hg, ← hf]
      by_cases heq : graph.id = parent
      · simp [heq, Graph.addSubGraph]
      · simp [heq, Ne.symm heq]
    · have hnone : graphs.filter (·.parent = some id) = [] := by
        rw [List.filter_eq_nil_iff]
        intro graph hg hb
        have hlt' := hlt _ (h.older graph hg id (by simpa using hb)).1
        exact Nat.lt_irrefl _ hlt'
      have hne : parent ≠ id := by
        rintro rfl
        exact Nat.lt_irrefl _ (hlt _ hp)
      simp [hnone, hne]

/-- Where the parent of a graph lists it no more, no graph does. -/
theorem subGraphs_pruned {graph : Graph} (hg : graph ∈ graphs) {parent : GraphId}
    (hp : graph.parent = some parent) {g : Graph} (hg' : g ∈ graphs) :
    (if g.id = parent then g.removeSubGraph graph.id else g).subGraphs =
      g.subGraphs.filter (· ≠ graph.id) := by
  by_cases heq : g.id = parent
  · simp [heq, Graph.removeSubGraph]
  · rw [if_neg heq]
    refine (List.filter_eq_self.2 fun sub hs => ?_).symm
    rw [decide_eq_true_eq]
    rintro rfl
    obtain ⟨inner, hi, hid, hp'⟩ := (h.mem_subGraphs hg').1 hs
    obtain rfl := h.eq_of_id hi hg hid
    exact heq (Option.some.inj (hp'.symm.trans hp))

/-- What lies within a graph can be taken out, if its parent lists it no more. -/
theorem pruned {graph : Graph} (hg : graph ∈ graphs) {parent : GraphId}
    (hp : graph.parent = some parent) {out : List GraphId}
    (hout : ∀ b, b ∈ out ↔ Within graphs graph.id b) :
    Nesting ((graphs.filter (·.id ∉ out)).map fun g =>
      if g.id = parent then g.removeSubGraph graph.id else g) := by
  -- A graph stays or goes with its parent, but for the one that is taken out.
  have hwith : ∀ g ∈ graphs, ∀ b, g.parent = some b →
      (g.id ∈ out ↔ b ∈ out ∨ g.id = graph.id) := by
    intro g hg' b hb
    rw [hout, hout, h.within_iff hg' hb]
  have hroot : rootGraph ∉ out := by
    intro hm
    have heq := h.eq_root_of_within ((hout _).1 hm)
    rw [← h.orphan graph hg, hp] at heq
    cases heq
  generalize hf : (fun g : Graph =>
    if g.id = parent then g.removeSubGraph graph.id else g) = f
  have hid : ∀ g, (f g).id = g.id := by
    intro g
    rw [← hf]
    simp only
    split <;> rfl
  have hparent : ∀ g, (f g).parent = g.parent := by
    intro g
    rw [← hf]
    simp only
    split <;> rfl
  have hids : ((graphs.filter (·.id ∉ out)).map f).map (·.id) =
      (graphs.map (·.id)).filter (· ∉ out) := by
    rw [Graph.map_ids hid, List.filter_map]
    rfl
  constructor
  · rw [List.pairwise_map]
    simpa only [hid] using h.sorted.filter _
  · rw [hids, List.mem_filter]
    exact ⟨h.root, by simpa using hroot⟩
  · simp only [List.forall_mem_map, hid, hparent]
    exact fun g hg => h.orphan g (List.mem_filter.1 hg).1
  · rw [hids]
    simp only [List.forall_mem_map, hid, hparent]
    intro g hg' b hb
    obtain ⟨hg', hstays⟩ := List.mem_filter.1 hg'
    obtain ⟨hlive, hlt⟩ := h.older g hg' b hb
    rw [decide_eq_true_eq, hwith g hg' b hb, not_or] at hstays
    exact ⟨List.mem_filter.2 ⟨hlive, by simpa using hstays.1⟩, hlt⟩
  · simp only [List.forall_mem_map, hid]
    intro g hg'
    obtain ⟨hg', hstays⟩ := List.mem_filter.1 hg'
    rw [decide_eq_true_eq] at hstays
    have hstay : ∀ g' ∈ graphs.filter (·.parent = some g.id),
        decide (g'.id ≠ graph.id) = decide (g'.id ∉ out) := by
      intro g' hm
      obtain ⟨hm, hp'⟩ := List.mem_filter.1 hm
      simp only [hwith g' hm g.id (by simpa using hp'), hstays, false_or, ne_eq]
    calc (f g).subGraphs
        = ((graphs.filter (·.parent = some g.id)).map (·.id)).filter (· ≠ graph.id) := by
          rw [← hf, ← h.listed g hg']
          exact h.subGraphs_pruned hg hp hg'
      _ = ((graphs.filter (·.parent = some g.id)).filter (·.id ≠ graph.id)).map (·.id) :=
          List.filter_map
      _ = ((graphs.filter (·.parent = some g.id)).filter (·.id ∉ out)).map (·.id) := by
          rw [List.filter_congr hstay]
      _ = (((graphs.filter (·.id ∉ out)).map f).filter (·.parent = some g.id)).map (·.id) := by
          rw [Graph.map_children hid hparent, List.filter_filter, List.filter_filter]
          simp only [Bool.and_comm]

end Nesting

namespace Script

variable {script : Script β}

theorem containsGraph_iff {id : GraphId} :
    script.containsGraph id = true ↔ id ∈ script.graphs.map (·.id) := by
  unfold containsGraph graph?
  rw [List.find?_isSome, List.mem_map]
  simp only [decide_eq_true_eq]

/-! ### Going through a tree -/

/-- The graphs of a tree, each before the graphs nested in it. The first argument bounds how deep
graphs are nested. -/
def nested (script : Script β) : Nat → GraphId → List GraphId
  | 0, _ => []
  | fuel + 1, id => id :: (script.graph? id).elim [] (·.subGraphs.flatMap (script.nested fuel))

theorem nested_eq (h : Nesting script.graphs) : ∀ (fuel fuel' : Nat),
    ∀ graph ∈ script.graphs, Nesting.AtMost script.graphs fuel graph.id →
      Nesting.AtMost script.graphs fuel' graph.id →
      script.nested fuel graph.id = script.nested fuel' graph.id
  | 0, _, _, _, hf, _ => absurd hf.pos (Nat.lt_irrefl _)
  | _, 0, _, _, _, hf => absurd hf.pos (Nat.lt_irrefl _)
  | fuel + 1, fuel' + 1, graph, hg, hf, hf' => by
    have hfind : script.graph? graph.id = some graph := h.find?_eq hg
    rw [nested, nested, hfind, Option.elim_some, Option.elim_some]
    congr 1
    refine List.flatMap_congr fun sub hs => ?_
    obtain ⟨inner, hi, rfl, -⟩ := (h.mem_subGraphs hg).1 hs
    exact nested_eq h fuel fuel' inner hi (hf.sub h hg hs) (hf'.sub h hg hs)

/-- If the fuel suffices to look up every graph within the graphs of a stack, of which none lies
within another, then a walk goes through the trees of the stack one after another. -/
theorem walk_eq (h : Nesting script.graphs) : ∀ (fuel : Nat) (stack : List GraphId),
    (∀ id ∈ stack, id ∈ script.graphs.map (·.id)) →
    stack.Pairwise (fun a b => ¬ Within script.graphs a b ∧ ¬ Within script.graphs b a) →
    (∀ ids : List GraphId, ids.Nodup → (∀ b ∈ ids, ∃ a ∈ stack, Within script.graphs a b) →
      ids.length ≤ fuel) →
    script.walk fuel stack = stack.flatMap (script.nested script.graphs.length)
  | 0, [], _, _, _ => rfl
  | 0, id :: stack, _, _, hfuel => by
    have hone := hfuel [id] (List.pairwise_singleton _ id) fun b hb => by
      rw [List.mem_singleton.1 hb]
      exact ⟨id, List.mem_cons_self, .refl⟩
    exact absurd hone (by simp)
  | fuel + 1, [], _, _, _ => rfl
  | fuel + 1, id :: stack, hlive, hapart, hfuel => by
    obtain ⟨graph, hg, rfl⟩ := List.mem_map.1 (hlive id List.mem_cons_self)
    rw [List.pairwise_cons] at hapart
    obtain ⟨hid, hstack⟩ := hapart
    have hfind : script.graph? graph.id = some graph := h.find?_eq hg
    have ih := walk_eq h fuel (graph.subGraphs ++ stack) ?live (h.apart_below hg hid hstack) ?fuel
    · have hall := h.atMost (List.mem_map_of_mem (f := (·.id)) hg)
      have hmore : Nesting.AtMost script.graphs (script.graphs.length + 1) graph.id :=
        fun ids hn hw => Nat.le_succ_of_le (hall ids hn hw)
      rw [walk, hfind, List.flatMap_cons, nested_eq h _ _ graph hg hall hmore, nested, hfind,
        Option.elim_some, List.cons_append, ← List.flatMap_append]
      exact congrArg (graph.id :: ·) ih
    case live =>
      intro sub hs
      rcases List.mem_append.1 hs with hs | hs
      · exact h.live_of_within (List.mem_map_of_mem hg) (.listed .refl hg hs)
      · exact hlive sub (List.mem_cons_of_mem _ hs)
    case fuel =>
      -- The graph itself does not lie within the new stack, so that it counts besides.
      intro ids hn hw
      have hcons := hfuel (graph.id :: ids) ?_ fun b hb => ?_
      · simpa using hcons
      · exact List.nodup_cons.2 ⟨fun hm => h.not_within_below hg hid (hw _ hm), hn⟩
      · rw [h.within_cons_iff hg]
        exact (List.mem_cons.1 hb).imp_right (hw b)

/-- The subtree of a graph is the graph and the subtrees of what it lists. -/
theorem subtree_eq (h : Nesting script.graphs) {graph : Graph} (hg : graph ∈ script.graphs) :
    script.subtree graph.id = graph.id :: graph.subGraphs.flatMap script.subtree := by
  have htree : ∀ g ∈ script.graphs,
      script.subtree g.id = script.nested script.graphs.length g.id := by
    intro g hg
    have hwalk := walk_eq h (script.graphs.length + 1) [g.id] ?_ (List.pairwise_singleton _ _) ?_
    · rw [subtree, hwalk, List.flatMap_singleton]
    · exact List.forall_mem_singleton.2 (List.mem_map_of_mem hg)
    · intro ids hn hw
      refine Nat.le_succ_of_le (h.atMost (List.mem_map_of_mem hg) ids hn fun b hb => ?_)
      obtain ⟨a, ha, hwithin⟩ := hw b hb
      rwa [List.mem_singleton.1 ha] at hwithin
  have hall := h.atMost (List.mem_map_of_mem (f := (·.id)) hg)
  have hmore : Nesting.AtMost script.graphs (script.graphs.length + 1) graph.id :=
    fun ids hn hw => Nat.le_succ_of_le (hall ids hn hw)
  have hfind : script.graph? graph.id = some graph := h.find?_eq hg
  rw [htree graph hg, nested_eq h _ _ graph hg hall hmore, nested, hfind, Option.elim_some]
  congr 1
  refine List.flatMap_congr fun sub hs => ?_
  obtain ⟨inner, hi, rfl, -⟩ := (h.mem_subGraphs hg).1 hs
  exact (htree inner hi).symm

/-- The subtree of a graph is what lies within it. -/
theorem mem_subtree (h : Nesting script.graphs) {id : GraphId}
    (hid : id ∈ script.graphs.map (·.id)) (b : GraphId) :
    b ∈ script.subtree id ↔ Within script.graphs id b := by
  obtain ⟨graph, hg, rfl⟩ := List.mem_map.1 hid
  refine h.bottom_up (P := fun a => b ∈ script.subtree a ↔ Within script.graphs a b)
    (fun outer ho ih => ?_) graph hg
  have hcons : (∃ a ∈ [outer.id], Within script.graphs a b) ↔
      b = outer.id ∨ ∃ a ∈ outer.subGraphs ++ [], Within script.graphs a b :=
    h.within_cons_iff ho
  simp only [List.mem_singleton, exists_eq_left, List.append_nil] at hcons
  rw [subtree_eq h ho, List.mem_cons, List.mem_flatMap, hcons]
  exact or_congr_right (exists_congr fun sub => and_congr_right fun hs => ih sub hs)

end Script

end FlowScript
