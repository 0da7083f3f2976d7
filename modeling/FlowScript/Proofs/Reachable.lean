import FlowScript.Definition.Build
import FlowScript.Director.Tick
import FlowScript.Proofs.Builders

/-!
# Reachable scripts

A host comes by a script by starting from an empty one or by building a definition, then by edits
and by ticks. Building a definition is itself a series of edits of an empty script
(`edited_of_build`), so what every edit and every tick keep holds of every reachable script
(`Reachable.induction`).
-/

namespace FlowScript

variable {β : Type}

/-- Every node that an edit adds is of a permitted description. -/
def Edit.Places (placed : NodeBuilder β → Prop) : Edit β → Prop
  | .addNode _ builder => placed builder
  | _ => True

theorem Edit.Places.mono {placed placed' : NodeBuilder β → Prop} {change : Edit β}
    (h : change.Places placed) (hp : ∀ builder, placed builder → placed' builder) :
    change.Places placed' := by
  cases change with
  | addNode graph builder => exact hp builder h
  | _ => trivial

namespace Script

/-- What comes out of a script by permitted edits. -/
inductive Edited (permits : Edit β → Prop) (start : Script β) : Script β → Prop where
  | refl : Edited permits start start
  | edit {script : Script β} (change : Edit β) (permitted : permits change)
      (edited : Edited permits start script) : Edited permits start (script.edit change)

/-- The scripts that a host can come by, with nodes of the permitted descriptions. -/
inductive Reachable [Behavior β] (placed : NodeBuilder β → Prop) : Script β → Prop where
  | fresh (name : String) : Reachable placed (withRootName name)
  | built {definition : GraphDef} {registry : Registry β} {loaded : Loaded β}
      (places : registry.Places placed) (built : definition.build registry = .ok loaded) :
      Reachable placed loaded.script
  | edited {script : Script β} (change : Edit β) (places : change.Places placed)
      (reachable : Reachable placed script) : Reachable placed (script.edit change)
  | stepped {director after : Director β} {fuel : Nat} {sim real : Float}
      {ending : Except Halt Report} (reachable : Reachable placed director.script)
      (updated : director.update fuel sim real = some (ending, after)) :
      Reachable placed after.script

/-- A script with nodes of some descriptions is one with nodes of more descriptions. -/
theorem Reachable.mono [Behavior β] {placed placed' : NodeBuilder β → Prop}
    (hp : ∀ builder, placed builder → placed' builder) {script : Script β}
    (h : script.Reachable placed) : script.Reachable placed' := by
  induction h with
  | fresh name => exact .fresh name
  | built places built =>
    exact .built (fun type properties builder hc => hp builder (places type properties builder hc))
      built
  | edited change places reachable ih => exact ih.edited change (places.mono hp)
  | stepped reachable updated ih => exact ih.stepped updated

theorem Reachable.edits [Behavior β] {placed : NodeBuilder β → Prop} {script : Script β}
    (h : script.Reachable placed) {changes : List (Edit β)}
    (hp : ∀ change ∈ changes, change.Places placed) :
    (changes.foldl Script.edit script).Reachable placed := by
  induction changes generalizing script with
  | nil => exact h
  | cons change changes ih =>
    rw [List.forall_mem_cons] at hp
    exact ih (h.edited change hp.1) hp.2

end Script

/-! ## Building -/

/-- What holds all along if every step keeps it. -/
theorem foldlM_keeps {ε σ α : Type} {step : σ → α → Except ε σ} {P : σ → Prop}
    (hs : ∀ {s s' : σ} {a : α}, step s a = .ok s' → P s → P s') :
    ∀ (l : List α) {s s' : σ}, l.foldlM step s = .ok s' → P s → P s'
  | [], s, s', h, hp => by
    obtain rfl := Except.ok.inj h
    exact hp
  | a :: l, s, s', h, hp => by
    rw [List.foldlM_cons] at h
    obtain ⟨next, ha, h⟩ := bind_eq_ok.1 h
    exact foldlM_keeps hs l h (hs ha hp)

namespace Loaded

/-- Adding a graph, or a defined node under a new key, keeps what is loaded as it has to be. -/
structure PlacingKeeps (registry : Registry β) (defined : NodeDef → Prop) (P : Loaded β → Prop) :
    Prop where
  graph {loaded : Loaded β} {parent : GraphId} {name : String} {added : GraphId × Script β}
    (done : loaded.script.addGraph parent name = .ok added) (kept : P loaded) :
    P { loaded with script := added.2 }
  node {loaded : Loaded β} {graph : GraphId} {node : NodeDef} {builder : NodeBuilder β}
    {added : NodeId × Script β} (asked : defined node)
    (new : Keyed.contains loaded.keys node.key = false)
    (created : registry.create node.type node.properties = .ok builder)
    (done : loaded.script.addNode graph builder = .ok added) (kept : P loaded) :
    P ⟨added.2, Keyed.insert loaded.keys node.key added.1⟩

namespace PlacingKeeps

variable {registry : Registry β} {defined : NodeDef → Prop} {P : Loaded β → Prop}

theorem placeNodes (hp : PlacingKeeps registry defined P) (graph : GraphId) :
    ∀ (nodes : List NodeDef), (∀ node ∈ nodes, defined node) → ∀ {loaded loaded' : Loaded β},
      Loaded.placeNodes registry graph nodes loaded = .ok loaded' → P loaded → P loaded'
  | [], _, loaded, loaded', h, hl => by
    rw [Loaded.placeNodes] at h
    obtain rfl := Except.ok.inj h
    exact hl
  | node :: rest, hd, loaded, loaded', h, hl => by
    rw [List.forall_mem_cons] at hd
    rw [Loaded.placeNodes] at h
    split at h
    · cases h
    rename_i hnew
    obtain ⟨added, hi, h⟩ := bind_eq_ok.1 h
    obtain ⟨builder, hb, hadd⟩ := bind_eq_ok.1 (mapError_eq_ok.1 hi)
    exact placeNodes hp graph rest hd.2 h (hp.node hd.1 (by simpa using hnew) hb hadd hl)

mutual

theorem place (hp : PlacingKeeps registry defined P) : ∀ (definition : GraphDef) (graph : GraphId),
    (∀ nested ∈ definition.preorder, ∀ node ∈ nested.nodes, defined node) →
      ∀ {loaded loaded' : Loaded β}, Loaded.place registry definition graph loaded = .ok loaded' →
        P loaded → P loaded'
  | ⟨name, nodes, links, bindings, subs⟩, graph, hd, loaded, loaded', h, hl => by
    rw [GraphDef.preorder, List.forall_mem_cons] at hd
    rw [Loaded.place] at h
    obtain ⟨placed, hn, h⟩ := bind_eq_ok.1 h
    exact placeAll hp subs graph hd.2 h (hp.placeNodes graph nodes hd.1 hn hl)

theorem placeAll (hp : PlacingKeeps registry defined P) :
    ∀ (subs : List GraphDef) (parent : GraphId),
      (∀ nested ∈ GraphDef.preorderAll subs, ∀ node ∈ nested.nodes, defined node) →
        ∀ {loaded loaded' : Loaded β},
          Loaded.placeAll registry subs parent loaded = .ok loaded' → P loaded → P loaded'
  | [], parent, _, loaded, loaded', h, hl => by
    rw [Loaded.placeAll] at h
    obtain rfl := Except.ok.inj h
    exact hl
  | sub :: rest, parent, hd, loaded, loaded', h, hl => by
    rw [GraphDef.preorderAll, List.forall_mem_append] at hd
    rw [Loaded.placeAll] at h
    obtain ⟨added, hadd, h⟩ := bind_eq_ok.1 h
    obtain ⟨nested, hn, h⟩ := bind_eq_ok.1 h
    have hgraph := hp.graph (mapError_eq_ok.1 hadd) hl
    exact placeAll hp rest parent hd.2 h (place hp sub added.1 hd.1 hn hgraph)

end

end PlacingKeeps

theorem resolve_iff {loaded : Loaded β} {key : String} {id : NodeId} :
    loaded.resolve key = .ok id ↔ loaded.node? key = some id := by
  unfold resolve
  rcases loaded.node? key with _ | found <;> simp

/-- When a link is connected, and to what. -/
theorem wire_iff {loaded loaded' : Loaded β} {link : LinkDef} :
    loaded.wire link = .ok loaded' ↔ ∃ source target o i,
      loaded.node? link.source = some source ∧ loaded.node? link.target = some target
        ∧ loaded.script.outputIndex source link.output = .ok o
        ∧ loaded.script.inputIndex target link.input = .ok i
        ∧ loaded' =
          { loaded with script := (loaded.script.connect ⟨source, o⟩ ⟨target, i⟩).2 } := by
  constructor
  · intro h
    obtain ⟨source, hs, h⟩ := bind_eq_ok.1 h
    obtain ⟨target, ht, h⟩ := bind_eq_ok.1 h
    obtain ⟨o, ho, h⟩ := bind_eq_ok.1 h
    obtain ⟨i, hi, h⟩ := bind_eq_ok.1 h
    obtain ⟨made, hm, h⟩ := bind_eq_ok.1 h
    rw [mapError_eq_ok] at ho hi hm
    obtain ⟨o', ho', hm⟩ := bind_eq_ok.1 hm
    obtain ⟨i', hi', hm⟩ := bind_eq_ok.1 hm
    obtain rfl := Except.ok.inj hm
    exact ⟨source, target, o', i', resolve_iff.1 hs, resolve_iff.1 ht, ho', hi',
      (Except.ok.inj h).symm⟩
  · rintro ⟨source, target, o, i, hs, ht, ho, hi, rfl⟩
    refine bind_eq_ok.2 ⟨source, resolve_iff.2 hs, bind_eq_ok.2 ⟨target, resolve_iff.2 ht, ?_⟩⟩
    refine bind_eq_ok.2 ⟨o, mapError_eq_ok.2 ho, bind_eq_ok.2 ⟨i, mapError_eq_ok.2 hi, ?_⟩⟩
    refine bind_eq_ok.2 ⟨_, mapError_eq_ok.2 ?_, rfl⟩
    exact bind_eq_ok.2 ⟨o, ho, bind_eq_ok.2 ⟨i, hi, rfl⟩⟩

/-- When a value link is bound, and to what. -/
theorem bind_iff {loaded loaded' : Loaded β} {binding : BindingDef} :
    loaded.bind binding = .ok loaded' ↔ ∃ node cell index script,
      loaded.node? binding.node = some node ∧ loaded.node? binding.cell = some cell
        ∧ loaded.script.linkIndex node binding.link = .ok index
        ∧ loaded.script.connectValue ⟨node, index⟩ cell = .ok script
        ∧ loaded' = { loaded with script := script } := by
  constructor
  · intro h
    obtain ⟨node, hn, h⟩ := bind_eq_ok.1 h
    obtain ⟨cell, hc, h⟩ := bind_eq_ok.1 h
    obtain ⟨index, hi, h⟩ := bind_eq_ok.1 h
    obtain ⟨script, hb, h⟩ := bind_eq_ok.1 h
    rw [mapError_eq_ok] at hi hb
    obtain ⟨index', hi', hb⟩ := bind_eq_ok.1 hb
    exact ⟨node, cell, index', script, resolve_iff.1 hn, resolve_iff.1 hc, hi', hb,
      (Except.ok.inj h).symm⟩
  · rintro ⟨node, cell, index, script, hn, hc, hi, hb, rfl⟩
    refine bind_eq_ok.2 ⟨node, resolve_iff.2 hn, bind_eq_ok.2 ⟨cell, resolve_iff.2 hc, ?_⟩⟩
    refine bind_eq_ok.2 ⟨index, mapError_eq_ok.2 hi, ?_⟩
    exact bind_eq_ok.2 ⟨script, mapError_eq_ok.2 (bind_eq_ok.2 ⟨index, hi, hb⟩), rfl⟩

/-- What connecting and binding keep is kept when the links of graphs are joined. -/
theorem keeps_of_joins {P : Loaded β → Prop}
    (connect : ∀ (loaded : Loaded β) (o : OutputRef) (i : InputRef), P loaded →
      P { loaded with script := (loaded.script.connect o i).2 })
    (bound : ∀ (loaded : Loaded β) (ref : ValueLinkRef) (cell : NodeId) (script : Script β),
      loaded.script.connectValue ref cell = .ok script → P loaded →
      P { loaded with script := script }) :
    ∀ (graphs : List GraphDef) {loaded loaded' : Loaded β},
      graphs.foldlM join loaded = .ok loaded' → P loaded → P loaded' := by
  refine foldlM_keeps fun {loaded loaded' graph} h hp => ?_
  obtain ⟨wired, hw, h⟩ := bind_eq_ok.1 h
  refine foldlM_keeps (fun {s s' binding} hj hs => ?_) graph.bindings h
    (foldlM_keeps (fun {s s' link} hl hs => ?_) graph.links hw hp)
  · obtain ⟨node, cell, index, script, -, -, -, hb, rfl⟩ := bind_iff.1 hj
    exact bound s _ _ script hb hs
  · obtain ⟨source, target, o, i, -, -, -, -, rfl⟩ := wire_iff.1 hl
    exact connect s _ _ hs

end Loaded

/-! ## Building by edits -/

/-- Graphs, connections and bindings are permitted, as they are made when a definition is built. -/
structure Edit.Builds (permits : Edit β → Prop) : Prop where
  graphs (parent : GraphId) (name : String) : permits (.addGraph parent name)
  connections (output : OutputRef) (input : InputRef) : permits (.connect output input)
  bindings (link : ValueLinkRef) (cell : NodeId) : permits (.connectValue link cell)

/-- The description that a registry gives for a defined node may be added. -/
def NodeDef.Permitted (node : NodeDef) (registry : Registry β) (permits : Edit β → Prop) : Prop :=
  ∀ graph builder, registry.create node.type node.properties = .ok builder →
    permits (.addNode graph builder)

/-- A script that is built is what comes out of an empty one by edits. -/
theorem Loaded.edited_of_build {permits : Edit β → Prop} {registry : Registry β}
    (hb : Edit.Builds permits) {definition : GraphDef} {loaded : Loaded β}
    (hp : ∀ nested ∈ definition.preorder, ∀ node ∈ nested.nodes, node.Permitted registry permits)
    (h : definition.build registry = .ok loaded) :
    (Script.withRootName definition.name).Edited permits loaded.script := by
  have placing : PlacingKeeps registry (NodeDef.Permitted · registry permits) fun l : Loaded β =>
      (Script.withRootName definition.name).Edited permits l.script := by
    refine ⟨fun {l parent name added} done he => ?_,
      fun {l graph node builder added} asked _ created done he => ?_⟩
    · have hedit := he.edit (.addGraph parent name) (hb.graphs parent name)
      rw [Script.edit, done] at hedit
      exact hedit
    · have hedit := he.edit (.addNode graph builder) (asked graph builder created)
      rw [Script.edit, done] at hedit
      exact hedit
  obtain ⟨placed, hn, h⟩ := bind_eq_ok.1 h
  refine keeps_of_joins
    (P := fun l => (Script.withRootName definition.name).Edited permits l.script)
    (fun l o i he => he.edit (.connect o i) (hb.connections o i))
    (fun l ref cell script hc he => ?_) _ h (placing.place _ _ hp hn .refl)
  have hedit := he.edit (.connectValue ref cell) (hb.bindings ref cell)
  rw [Script.edit, hc] at hedit
  exact hedit

/-- What every edit and every tick keep holds of every reachable script. -/
theorem Script.Reachable.induction [Behavior β] {placed : NodeBuilder β → Prop}
    {P : Script β → Prop} (fresh : ∀ name, P (withRootName name))
    (edit : ∀ (script : Script β) (change : Edit β), change.Places placed → P script →
      P (script.edit change))
    (tick : ∀ (director after : Director β) (fuel : Nat) (sim real : Float)
      (ending : Except Halt Report), director.update fuel sim real = some (ending, after) →
      P director.script → P after.script) {script : Script β} (h : script.Reachable placed) :
    P script := by
  have edited : ∀ {start script : Script β}, start.Edited (Edit.Places placed) script →
      P start → P script := by
    intro start script he hs
    induction he with
    | refl => exact hs
    | edit change places edited ih => exact edit _ change places ih
  have builds : Edit.Builds (Edit.Places placed) :=
    ⟨fun _ _ => trivial, fun _ _ => trivial, fun _ _ => trivial⟩
  induction h with
  | fresh name => exact fresh name
  | built places built =>
    have permitted := Loaded.edited_of_build builds
      (fun _ _ node _ _ builder hc => places node.type node.properties builder hc) built
    exact edited permitted (fresh _)
  | edited change places reachable ih => exact edit _ change places ih
  | stepped reachable updated ih => exact tick _ _ _ _ _ _ updated ih

end FlowScript
