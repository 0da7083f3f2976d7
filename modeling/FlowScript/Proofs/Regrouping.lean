import FlowScript.Proofs.Building
import FlowScript.Proofs.Without

/-!
# Where links are defined

The links and bindings of a definition can be given in any graph of the tree and in any order, as
long as those of one output and those of one value link stay in order among themselves
(`GraphDef.Regrouped`): an output and a value link list what is joined to them in the order in which
they come to it, and nothing else of a script depends on it but the order in which inputs list
outputs (`Regrouped.build`).
-/

namespace FlowScript

variable {β : Type}

/-- The lists have the same entries, and those of one key in the same order. -/
structure Rearranged {α κ : Type} [DecidableEq κ] (key : α → κ) (l l' : List α) : Prop where
  perm : l'.Perm l
  order (k : κ) : l'.filter (key · = k) = l.filter (key · = k)

namespace GraphDef

mutual

/-- The tree of a definition without its links and bindings. -/
def unjoined : GraphDef → GraphDef
  | ⟨name, nodes, _, _, subs⟩ => ⟨name, nodes, [], [], unjoinedAll subs⟩

/-- Several trees without their links and bindings. -/
def unjoinedAll : List GraphDef → List GraphDef
  | [] => []
  | tree :: rest => unjoined tree :: unjoinedAll rest

end

/-- The links of a tree, in the order in which they are connected. -/
def treeLinks (definition : GraphDef) : List LinkDef := definition.preorder.flatMap (·.links)

/-- The bindings of a tree, in the order in which they are bound. -/
def treeBindings (definition : GraphDef) : List BindingDef :=
  definition.preorder.flatMap (·.bindings)

/-- The second definition is the first with its links and bindings moved about in the tree. Those of
one output and those of one value link keep their order. -/
structure Regrouped (definition definition' : GraphDef) : Prop where
  tree : definition'.unjoined = definition.unjoined
  links : Rearranged (fun link : LinkDef => (link.source, link.output)) definition.treeLinks
    definition'.treeLinks
  bindings : Rearranged (fun binding : BindingDef => (binding.node, binding.link))
    definition.treeBindings definition'.treeBindings

end GraphDef

/-- The node without what its inputs list. -/
def Node.unlisted (node : Node β) : Node β := { node with inputs := node.inputs.map .clear }

namespace Script

/-- The script without what inputs list. -/
def unlisted (script : Script β) : Script β :=
  { script with nodes := script.nodes.map .unlisted }

/-- The scripts are the same but for the order in which inputs list outputs. -/
structure AlikeButSources (script script' : Script β) : Prop where
  apart : script'.unlisted = script.unlisted
  sources (i : InputRef) : (script'.sources i).Perm (script.sources i)

end Script

/-! ## Lists that keep their order by keys -/

namespace Rearranged

variable {α κ ρ τ : Type} [DecidableEq κ] [DecidableEq ρ] {key : α → κ} {l l' : List α}

theorem symm (h : Rearranged key l l') : Rearranged key l' l :=
  ⟨h.perm.symm, fun k => (h.order k).symm⟩

/-- Only the keys that there are count. -/
theorem of_keys (perm : l'.Perm l)
    (order : ∀ k ∈ l.map key, l'.filter (key · = k) = l.filter (key · = k)) :
    Rearranged key l l' := by
  refine ⟨perm, fun k => ?_⟩
  by_cases hk : k ∈ l.map key
  · exact order k hk
  · have hnone : ∀ l : List α, k ∉ l.map key → l.filter (key · = k) = [] := by
      intro l hout
      rw [List.filter_eq_nil_iff]
      intro a ha hkey
      exact hout (List.mem_map.2 ⟨a, ha, of_decide_eq_true hkey⟩)
    rw [hnone l hk, hnone l' fun hin => hk ((perm.map key).mem_iff.1 hin)]

/-- What entries of one key stand for is in order, too. -/
theorem filter_filterMap (h : Rearranged key l l') {f : α → Option (ρ × τ)}
    (hkey : ∀ a b r x y, f a = some (r, x) → f b = some (r, y) → key a = key b) (r : ρ) :
    (l'.filterMap f).filter (·.1 = r) = (l.filterMap f).filter (·.1 = r) := by
  by_cases hit : ∃ a ∈ l, ∃ x, f a = some (r, x)
  · -- All that stands for `r` has the key of one such entry, and these entries are in order.
    obtain ⟨a, -, x, ha⟩ := hit
    have hown : ∀ l : List α, (l.filterMap f).filter (·.1 = r) =
        ((l.filter (key · = key a)).filterMap f).filter (·.1 = r) := by
      intro l
      simp only [List.filter_filterMap, List.filterMap_filter]
      refine List.filterMap_congr fun b _ => ?_
      by_cases hb : key b = key a
      · rw [if_pos (decide_eq_true hb)]
      · rw [if_neg (by simpa using hb), Option.filter_none, Option.filter_eq_none_iff]
        rintro ⟨r', y⟩ hy hr
        obtain rfl : r' = r := of_decide_eq_true hr
        exact hb (hkey b a r' y x hy ha)
    rw [hown l', hown l, h.order]
  · have hnone : ∀ l : List α, (∀ a ∈ l, ∀ x, f a ≠ some (r, x)) →
        (l.filterMap f).filter (·.1 = r) = [] := by
      intro l hl
      rw [List.filter_eq_nil_iff]
      rintro ⟨r', x⟩ hx hr
      obtain ⟨a, ha, hax⟩ := List.mem_filterMap.1 hx
      obtain rfl : r' = r := of_decide_eq_true hr
      exact hl a ha x hax
    push Not at hit
    rw [hnone l hit, hnone l' fun a ha => hit a (h.perm.mem_iff.1 ha)]

end Rearranged

/-! ## Creating nodes -/

namespace Loaded

mutual

theorem place_unjoined (registry : Registry β) : ∀ (tree : GraphDef) (graph : GraphId)
    (loaded : Loaded β),
      place registry tree.unjoined graph loaded = place registry tree graph loaded
  | ⟨name, nodes, links, bindings, subs⟩, graph, loaded => by
    rw [GraphDef.unjoined, place, place]
    simp only [placeAll_unjoined registry subs]

theorem placeAll_unjoined (registry : Registry β) : ∀ (trees : List GraphDef) (graph : GraphId)
    (loaded : Loaded β),
      placeAll registry (GraphDef.unjoinedAll trees) graph loaded =
        placeAll registry trees graph loaded
  | [], _, _ => by rw [GraphDef.unjoinedAll]
  | tree :: rest, graph, loaded => by
    have hname : tree.unjoined.name = tree.name := by
      rcases tree with ⟨name, nodes, links, bindings, subs⟩
      rw [GraphDef.unjoined]
    rw [GraphDef.unjoinedAll, placeAll, placeAll, hname]
    simp only [place_unjoined registry tree, placeAll_unjoined registry rest]

end

/-- Joining links gives no new keys and changes nothing but connections and bindings. -/
theorem disjoined_of_joins {graphs : List GraphDef} {placed loaded : Loaded β}
    (h : graphs.foldlM join placed = .ok loaded) :
    loaded.keys = placed.keys ∧ loaded.script.disjoined = placed.script.disjoined := by
  refine keeps_of_joins (P := fun l => l.keys = placed.keys
    ∧ l.script.disjoined = placed.script.disjoined) (fun l o i hl => ?_)
    (fun l ref cell next hc hl => ?_) graphs h ⟨rfl, rfl⟩
  · exact ⟨hl.1, (Script.disjoined_of_unwired (l.script.unwired_connect o i)).trans hl.2⟩
  · exact ⟨hl.1, (Script.disjoined_connectValue hc).trans hl.2⟩

end Loaded

/-! ## What names lead to -/

namespace GraphDef

variable {definition definition' : GraphDef} {registry : Registry β}

/-- Nodes of the same id have the same key. -/
theorem key_of_node? {key key' : String} {node node' : Node β}
    (h : definition.node? registry key = some node)
    (h' : definition.node? registry key' = some node') (hid : node'.id = node.id) :
    key' = key ∧ node' = node := by
  obtain ⟨k, hk, hn⟩ := Option.bind_eq_some_iff.1 h
  obtain ⟨k', hk', hn'⟩ := Option.bind_eq_some_iff.1 h'
  have hids := registry.nodup_nodes (homes definition.preorder 0) 0
  have hat : ((definition.created registry).map (·.id))[k']? =
      ((definition.created registry).map (·.id))[k]? := by
    rw [List.getElem?_map, List.getElem?_map, hn, hn', Option.map_some, Option.map_some, hid]
  have hlt : k' < ((definition.created registry).map (·.id)).length := by
    rw [List.length_map]
    exact (List.getElem?_eq_some_iff.1 hn').1
  obtain rfl : k' = k := (List.getElem?_inj hlt hids).1 hat
  obtain ⟨entry, hentry, hfirst⟩ := getElem?_position? hk
  obtain ⟨entry', hentry', hfirst'⟩ := getElem?_position? hk'
  obtain rfl : entry' = entry := Option.some.inj (hentry'.symm.trans hentry)
  refine ⟨?_, Option.some.inj (hn'.symm.trans hn)⟩
  have hkey : entry'.key = key := by simpa using List.find?_some hfirst
  have hkey' : entry'.key = key' := by simpa using List.find?_some hfirst'
  rw [← hkey, ← hkey']

/-- Names that are found at the same place are the same. -/
theorem name_of_position? {α : Type} {name : α → String} {l : List α} {n n' : String} {index : Nat}
    (h : position? (name · == n) l = some index) (h' : position? (name · == n') l = some index) :
    n' = n := by
  obtain ⟨a, ha, hfirst⟩ := getElem?_position? h
  obtain ⟨a', ha', hfirst'⟩ := getElem?_position? h'
  obtain rfl : a' = a := Option.some.inj (ha'.symm.trans ha)
  have hname : name a' = n := by simpa using List.find?_some hfirst
  have hname' : name a' = n' := by simpa using List.find?_some hfirst'
  rw [← hname, ← hname']

theorem output?_inj {key key' name name' : String} {o : OutputRef}
    (h : definition.output? registry key name = some o)
    (h' : definition.output? registry key' name' = some o) : (key, name) = (key', name') := by
  obtain ⟨node, hn, h⟩ := Option.bind_eq_some_iff.1 h
  obtain ⟨node', hn', h'⟩ := Option.bind_eq_some_iff.1 h'
  obtain ⟨index, hindex, rfl⟩ := Option.map_eq_some_iff.1 h
  obtain ⟨index', hindex', heq⟩ := Option.map_eq_some_iff.1 h'
  obtain ⟨hid, rfl⟩ := OutputRef.mk.inj heq
  obtain ⟨rfl, rfl⟩ := key_of_node? hn hn' hid
  rw [name_of_position? hindex hindex']

theorem link?_inj {key key' name name' : String} {ref : ValueLinkRef} {link link' : ValueLink}
    (h : definition.link? registry key name = some (ref, link))
    (h' : definition.link? registry key' name' = some (ref, link')) :
    (key, name) = (key', name') := by
  obtain ⟨node, hn, hindex, -, hid⟩ := link?_eq_some.1 h
  obtain ⟨node', hn', hindex', -, hid'⟩ := link?_eq_some.1 h'
  obtain ⟨rfl, rfl⟩ := key_of_node? hn hn' (hid'.trans hid.symm)
  rw [name_of_position? hindex hindex']

/-! ## The pieces of a tree -/

theorem filterMap_wire? (registry : Registry β) (definition definition' : GraphDef) :
    definition'.pieces.filterMap (definition.wire? registry) =
      definition'.treeLinks.filterMap fun link => definition.wire? registry (.link link) := by
  have hnode (node : NodeDef) : definition.wire? registry (.node node) = none := rfl
  have hbinding (binding : BindingDef) : definition.wire? registry (.binding binding) = none := rfl
  simp [pieces, joins, treeLinks, List.filterMap_flatMap, List.filterMap_map, hnode,
    hbinding]

theorem filterMap_bond? (registry : Registry β) (definition definition' : GraphDef) :
    definition'.pieces.filterMap (definition.bond? registry) =
      definition'.treeBindings.filterMap fun binding =>
        definition.bond? registry (.binding binding) := by
  have hnode (node : NodeDef) : definition.bond? registry (.node node) = none := rfl
  have hlink (link : LinkDef) : definition.bond? registry (.link link) = none := rfl
  simp [pieces, joins, treeBindings, List.filterMap_flatMap, List.filterMap_map, hnode,
    hlink]

mutual

theorem nodes_unjoined : ∀ tree : GraphDef,
    tree.unjoined.preorder.map (·.nodes) = tree.preorder.map (·.nodes)
  | ⟨name, nodes, links, bindings, subs⟩ => by
    rw [unjoined, preorder, preorder, List.map_cons, List.map_cons, nodes_unjoinedAll]

theorem nodes_unjoinedAll : ∀ trees : List GraphDef,
    (preorderAll (unjoinedAll trees)).map (·.nodes) = (preorderAll trees).map (·.nodes)
  | [] => by rw [unjoinedAll]
  | tree :: rest => by
    rw [unjoinedAll, preorderAll, preorderAll, List.map_append, List.map_append, nodes_unjoined,
      nodes_unjoinedAll]

end

/-! ## What is moved about -/

namespace Regrouped

variable (h : definition.Regrouped definition')

theorem symm : definition.Regrouped definition' → definition'.Regrouped definition
  | ⟨tree, links, bindings⟩ => ⟨tree.symm, links.symm, bindings.symm⟩

include h

theorem homes_eq (k : Nat) : homes definition'.preorder k = homes definition.preorder k := by
  have hlists (graphs : List GraphDef) : homes graphs k =
      ((graphs.map (·.nodes)).zipIdx k).flatMap fun e => e.1.map (⟨e.2⟩, ·) := by
    simp only [homes, List.zipIdx_map, List.flatMap_map]
    rfl
  rw [hlists, hlists, ← nodes_unjoined definition', h.tree, nodes_unjoined]

theorem entries_eq : definition'.entries = definition.entries := by
  have hsnd (d : GraphDef) : d.entries = (homes d.preorder 0).map (·.2) := (nodes_homes _ 0).symm
  rw [hsnd, hsnd, h.homes_eq]

variable (registry)

theorem node?_eq : definition'.node? registry = definition.node? registry := by
  funext key
  rw [node?, node?, h.entries_eq, created, created, h.homes_eq]

theorem wire?_eq : definition'.wire? registry = definition.wire? registry := by
  funext piece
  cases piece <;> simp only [wire?, output?, input?, h.node?_eq]

theorem link?_eq : definition'.link? registry = definition.link? registry := by
  funext key name
  rw [link?, link?, h.node?_eq]

theorem bond?_eq : definition'.bond? registry = definition.bond? registry := by
  funext piece
  cases piece <;> simp only [bond?, h.node?_eq, h.link?_eq]

theorem brought_eq : definition'.brought registry = definition.brought registry := by
  funext ref
  rw [brought, brought, created, created, h.homes_eq]

theorem creates_eq : definition'.creates registry = definition.creates registry := by
  funext id
  rw [creates, creates, created, created, h.homes_eq]

theorem led_eq : definition'.led registry definition'.pieces =
    definition.led registry definition.pieces := by
  funext o
  rw [led, led, h.wire?_eq, filterMap_wire?, filterMap_wire?, h.links.filter_filterMap]
  intro link link' r x y hl hl'
  obtain ⟨o, ho, hl⟩ := Option.bind_eq_some_iff.1 hl
  obtain ⟨o', ho', hl'⟩ := Option.bind_eq_some_iff.1 hl'
  obtain ⟨_, -, heq⟩ := Option.map_eq_some_iff.1 hl
  obtain ⟨_, -, heq'⟩ := Option.map_eq_some_iff.1 hl'
  obtain ⟨rfl, -⟩ := Prod.mk.inj heq
  obtain ⟨rfl, -⟩ := Prod.mk.inj heq'
  exact output?_inj ho ho'

theorem held_eq : definition'.held registry definition'.pieces =
    definition.held registry definition.pieces := by
  funext ref
  rw [held, held, h.bond?_eq, filterMap_bond?, filterMap_bond?, h.bindings.filter_filterMap]
  intro binding binding' r x y hb hb'
  obtain ⟨⟨ref, link⟩, hl, hb⟩ := Option.bind_eq_some_iff.1 hb
  obtain ⟨⟨ref', link'⟩, hl', hb'⟩ := Option.bind_eq_some_iff.1 hb'
  obtain ⟨_, -, heq⟩ := Option.map_eq_some_iff.1 hb
  obtain ⟨_, -, heq'⟩ := Option.map_eq_some_iff.1 hb'
  obtain ⟨rfl, -⟩ := Prod.mk.inj heq
  obtain ⟨rfl, -⟩ := Prod.mk.inj heq'
  exact link?_inj hl hl'

theorem buildable (hb : definition.Buildable registry) : definition'.Buildable registry where
  keys := h.entries_eq ▸ hb.keys
  types := h.entries_eq ▸ hb.types
  links graph hg link hl := by
    have hmem : link ∈ definition.treeLinks :=
      h.links.perm.mem_iff.1 (List.mem_flatMap.2 ⟨graph, hg, hl⟩)
    obtain ⟨graph', hg', hl'⟩ := List.mem_flatMap.1 hmem
    have hlink := hb.links graph' hg' link hl'
    simp only [output?, input?, h.node?_eq] at hlink ⊢
    exact hlink
  bindings graph hg binding hl := by
    have hmem : binding ∈ definition.treeBindings :=
      h.bindings.perm.mem_iff.1 (List.mem_flatMap.2 ⟨graph, hg, hl⟩)
    obtain ⟨graph', hg', hl'⟩ := List.mem_flatMap.1 hmem
    rw [h.link?_eq, h.node?_eq]
    exact hb.bindings graph' hg' binding hl'
  once := h.held_eq registry ▸ hb.once
  single := by
    rw [h.held_eq, h.link?_eq]
    exact hb.single
  fresh := by
    rw [h.held_eq, h.brought_eq]
    exact hb.fresh
  vacant := by
    rw [h.held_eq, h.link?_eq, h.brought_eq, h.creates_eq]
    exact hb.vacant

end Regrouped

end GraphDef

/-! ## What is built -/

/-- A script is the same but for what inputs list if it is the same without its connections and
bindings, and its outputs and value links list the same. -/
theorem Script.unlisted_eq {script script' : Script β} (hn : (script.nodes.map (·.id)).Nodup)
    (h : script'.disjoined = script.disjoined) (ht : script'.targets = script.targets)
    (hb : script'.bound = script.bound) : script'.unlisted = script.unlisted := by
  simp only [disjoined, Script.mk.injEq] at h
  obtain ⟨hgraphs, hnodes, htypes, hnextGraph, hnextNode⟩ := h
  have hids : script'.nodes.map (·.id) = script.nodes.map (·.id) := by
    have hmap := congrArg (List.map Node.id) hnodes
    rw [List.map_map, List.map_map] at hmap
    exact hmap
  have hlists : script'.nodes.map Node.unlisted = script.nodes.map .unlisted := by
    refine map_eq_of_keys hnodes fun node hmem node' hmem' hsame => ?_
    have hfind : script.node? node.id = some node := find?_of_mem hn hmem
    have hfind' : script'.node? node'.id = some node' := find?_of_mem (hids ▸ hn) hmem'
    have hid : node'.id = node.id := (congrArg Node.id hsame :)
    rw [hid] at hfind'
    have houtputs : node'.outputs = node.outputs := by
      refine ext_of_views OutputLink.clear (·.connected) ?_ (congrArg Node.outputs hsame :)
        fun k => ?_
      · rintro ⟨name, connected, active⟩ ⟨name', connected', active'⟩ hname rfl
        obtain ⟨rfl, -, rfl⟩ := OutputLink.mk.inj hname
        rfl
      · have hlist := congrFun ht ⟨node.id, k⟩
        rw [targets, output?, hfind', targets, output?, hfind] at hlist
        exact hlist
    have hlinks : node'.links = node.links := by
      refine ext_of_views ValueLink.clear (·.bound) ?_ (congrArg Node.links hsame :) fun k => ?_
      · rintro ⟨name, off, multiple, checked, value, bound⟩
          ⟨name', off', multiple', checked', value', bound'⟩ hname rfl
        obtain ⟨rfl, rfl, rfl, rfl, rfl, -⟩ := ValueLink.mk.inj hname
        rfl
      · have hlist := congrFun hb ⟨node.id, k⟩
        rw [bound, link?, hfind', bound, link?, hfind] at hlist
        exact hlist
    have hparts : ∀ m : Node β, m.unlisted =
        { m.cleared with outputs := m.outputs, links := m.links } := fun _ => rfl
    rw [hparts, hparts, hsame, houtputs, hlinks]
  simp only [unlisted, hgraphs, hlists, htypes, hnextGraph, hnextNode]

/-- Moving links and bindings about in the tree, so that those of one output and those of one value
link keep their order, makes no difference to whether a definition is built, to its keys and ids,
and to its script but for the order in which inputs list outputs. -/
theorem GraphDef.Regrouped.build {definition definition' : GraphDef}
    (h : definition.Regrouped definition') {registry : Registry β}
    (places : registry.Places NodeBuilder.Made) :
    ((∃ loaded, definition'.build registry = .ok loaded)
        ↔ ∃ loaded, definition.build registry = .ok loaded)
      ∧ ∀ loaded loaded', definition.build registry = .ok loaded →
        definition'.build registry = .ok loaded' →
          loaded'.keys = loaded.keys ∧ loaded.script.AlikeButSources loaded'.script := by
  obtain ⟨hok, hbuilt, -⟩ := build_spec places definition
  obtain ⟨hok', hbuilt', -⟩ := build_spec places definition'
  refine ⟨?_, fun loaded loaded' hl hl' => ?_⟩
  · rw [hok, hok']
    exact ⟨h.symm.buildable registry, h.buildable registry⟩
  -- The same nodes are created, whatever is then joined.
  have hname : definition'.name = definition.name := by
    have hroot : ∀ d : GraphDef, d.unjoined.name = d.name := by
      rintro ⟨name, nodes, links, bindings, subs⟩
      rw [unjoined]
    rw [← hroot, h.tree, hroot]
  have hsame := hbuilt loaded hl
  have hsame' := hbuilt' loaded' hl'
  obtain ⟨placed, hplaced, hjoin⟩ := bind_eq_ok.1 hl
  obtain ⟨placed', hplaced', hjoin'⟩ := bind_eq_ok.1 hl'
  obtain rfl : placed' = placed := by
    rw [← Loaded.place_unjoined, h.tree, Loaded.place_unjoined, hname, hplaced] at hplaced'
    exact (Except.ok.inj hplaced').symm
  obtain ⟨hkeys, hdisjoined⟩ := Loaded.disjoined_of_joins hjoin
  obtain ⟨hkeys', hdisjoined'⟩ := Loaded.disjoined_of_joins hjoin'
  have htargets : loaded'.script.targets = loaded.script.targets := by
    funext o
    rw [hsame'.targets, h.led_eq, hsame.targets]
  have hbound : loaded'.script.bound = loaded.script.bound := by
    funext ref
    rw [hsame'.bound, listed, h.brought_eq, h.held_eq, hsame.bound, listed]
  have hids : (loaded.script.nodes.map (·.id)).Nodup := by
    have hnodup := registry.nodup_nodes (homes definition.preorder 0) 0
    have hmap := congrArg (List.map (·.id)) hsame.nodes
    rw [List.map_map, List.map_map] at hmap
    exact hmap.symm ▸ hnodup
  refine ⟨hkeys'.trans hkeys.symm, Script.unlisted_eq hids (hdisjoined'.trans hdisjoined.symm)
    htargets hbound, fun i => ?_⟩
  refine (List.perm_ext_iff_of_nodup (hsame'.paired.sources_nodup i)
    (hsame.paired.sources_nodup i)).2 fun o => ?_
  rw [← hsame'.paired.both, htargets, hsame.paired.both]

/-- Two switches at the doors of a hall, which turn a dial and share a lamp on a panel. -/
def hall : GraphDef where
  name := "hall"
  nodes :=
    [ { key := "front", name := "Toggle", category := "Core" }
    , { key := "back", name := "Toggle", category := "Core" } ]
  links := [⟨"front", "Out", "dial", "In"⟩, ⟨"back", "Out", "dial", "In"⟩]
  subGraphs :=
    [ { name := "panel"
        nodes :=
          [ { key := "lamp", name := "Boolean", category := "Value" }
          , { key := "dial", name := "Switch", category := "Core" } ]
        links := [⟨"front", "Out", "dial", "Reset"⟩]
        bindings := [⟨"front", "Value", "lamp"⟩, ⟨"back", "Value", "lamp"⟩] } ]

/-- The hall with its links on the panel, the one of the back door first, and its bindings beside
the doors. -/
def rewiredHall : GraphDef :=
  { hall with
    links := []
    bindings := [⟨"back", "Value", "lamp"⟩, ⟨"front", "Value", "lamp"⟩]
    subGraphs := hall.subGraphs.map fun panel =>
      { panel with
        links := [⟨"back", "Out", "dial", "In"⟩, ⟨"front", "Out", "dial", "In"⟩,
          ⟨"front", "Out", "dial", "Reset"⟩]
        bindings := [] } }

/-- Both halls are built to the same script, but the dial lists the doors in another order. -/
theorem GraphDef.build_of_hall : ∃ loaded loaded', hall.build Standard.registry = .ok loaded
    ∧ rewiredHall.build Standard.registry = .ok loaded' ∧ loaded'.keys = loaded.keys
    ∧ loaded.script.AlikeButSources loaded'.script
    ∧ loaded.script.sources ⟨⟨3⟩, 0⟩ = [⟨⟨0⟩, 0⟩, ⟨⟨1⟩, 0⟩]
    ∧ loaded'.script.sources ⟨⟨3⟩, 0⟩ = [⟨⟨1⟩, 0⟩, ⟨⟨0⟩, 0⟩] := by
  have regrouped : hall.Regrouped rewiredHall :=
    ⟨rfl, .of_keys (by decide) (by decide), .of_keys (by decide) (by decide)⟩
  obtain ⟨hiff, halike⟩ := regrouped.build Standard.places_made
  have hfront : ((hall.build Standard.registry).toOption.map
      (·.script.sources ⟨⟨3⟩, 0⟩)) = some [⟨⟨0⟩, 0⟩, ⟨⟨1⟩, 0⟩] := by
    decide +kernel
  have hback : ((rewiredHall.build Standard.registry).toOption.map
      (·.script.sources ⟨⟨3⟩, 0⟩)) = some [⟨⟨1⟩, 0⟩, ⟨⟨0⟩, 0⟩] := by
    decide +kernel
  obtain ⟨loaded, hl⟩ : ∃ loaded, hall.build Standard.registry = .ok loaded :=
    exists_ok_of_isSome (by decide +kernel)
  obtain ⟨loaded', hl'⟩ := hiff.2 ⟨loaded, hl⟩
  rw [hl] at hfront
  rw [hl'] at hback
  obtain ⟨hkeys, hscripts⟩ := halike loaded loaded' hl hl'
  exact ⟨loaded, loaded', hl, hl', hkeys, hscripts, Option.some.inj hfront, Option.some.inj hback⟩

end FlowScript
