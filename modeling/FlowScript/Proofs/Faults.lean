import FlowScript.Proofs.FirstFault
import FlowScript.Proofs.Rewiring

/-!
# Faults of a definition

A definition is built piece by piece: every node is created, then every link and every binding is
joined (`GraphDef.pieces`). Whether a piece fails, and how, can be told from the definition and the
pieces before it (`GraphDef.fault?`), without building anything. No piece has a fault exactly if
keys are distinct, names resolve and bindings are allowed (`GraphDef.Buildable`). A factory may
describe value links that list something already (`GraphDef.brought`); what they list comes first,
and a binding has to go along with it.
-/

namespace FlowScript

variable {β : Type}

/-! ## What a definition names -/

/-- A piece of a definition, which takes one step to build. -/
inductive Piece where
  | node (node : NodeDef)
  | link (link : LinkDef)
  | binding (binding : BindingDef)

/-- The key that a piece gives away. -/
def Piece.key? : Piece → Option String
  | .node defined => some defined.key
  | _ => none

/-- The nodes of graphs with the ids of their graphs, which are numbered from the given one on. -/
def homes (graphs : List GraphDef) (graph : Nat) : List (GraphId × NodeDef) :=
  (graphs.zipIdx graph).flatMap fun e => e.1.nodes.map (⟨e.2⟩, ·)

/-- The nodes that a registry creates, which are numbered from the given one on. -/
def Registry.nodes (registry : Registry β) (homes : List (GraphId × NodeDef)) (node : Nat) :
    List (Node β) :=
  (homes.zipIdx node).filterMap fun e =>
    (registry.create e.1.2.type e.1.2.properties).toOption.map (·.build ⟨e.2⟩ e.1.1)

namespace GraphDef

/-- The defined nodes of a tree: those of a graph, then those of the graphs nested in it. -/
def entries (definition : GraphDef) : List NodeDef := definition.preorder.flatMap (·.nodes)

/-- What a graph defines to be joined. -/
def joins (graph : GraphDef) : List Piece := graph.links.map .link ++ graph.bindings.map .binding

/-- The pieces of a definition, in the order in which they are built. -/
def pieces (definition : GraphDef) : List Piece :=
  definition.entries.map .node ++ definition.preorder.flatMap joins

variable (definition : GraphDef) (registry : Registry β)

/-- The nodes of a definition before they are joined. -/
def created : List (Node β) := registry.nodes (homes definition.preorder 0) 0

/-- The first node of a key. -/
def node? (key : String) : Option (Node β) :=
  (position? (·.key == key) definition.entries).bind fun k => (definition.created registry)[k]?

def output? (key name : String) : Option OutputRef :=
  (definition.node? registry key).bind fun node => (node.outputIndex? name).map (⟨node.id, ·⟩)

def input? (key name : String) : Option InputRef :=
  (definition.node? registry key).bind fun node => (node.inputIndex? name).map (⟨node.id, ·⟩)

/-- The first value link of a name, with the reference to it. -/
def link? (key name : String) : Option (ValueLinkRef × ValueLink) :=
  (definition.node? registry key).bind fun node => (node.linkIndex? name).bind fun index =>
    (node.links[index]?).map (⟨node.id, index⟩, ·)

/-- The connection that a piece stands for. -/
def wire? : Piece → Option (OutputRef × InputRef)
  | .link link => (definition.output? registry link.source link.output).bind fun o =>
    (definition.input? registry link.target link.input).map (o, ·)
  | _ => none

/-- The binding that a piece stands for. -/
def bond? : Piece → Option (ValueLinkRef × NodeId)
  | .binding binding => (definition.link? registry binding.node binding.link).bind fun found =>
    (definition.node? registry binding.cell).map (found.1, ·.id)
  | _ => none

/-- The cells that pieces bind to a value link, in order. -/
def held (pieces : List Piece) (ref : ValueLinkRef) : List NodeId :=
  ((pieces.filterMap (definition.bond? registry)).filter (·.1 = ref)).map (·.2)

/-- What a value link lists as it is created. -/
def brought (ref : ValueLinkRef) : List NodeId :=
  (((definition.created registry).find? (·.id = ref.node)).bind (·.links[ref.index]?)).elim []
    (·.bound)

/-- What a value link lists once pieces have been built. -/
def listed (pieces : List Piece) (ref : ValueLinkRef) : List NodeId :=
  definition.brought registry ref ++ definition.held registry pieces ref

/-- Whether the definition has a node of this id. -/
def creates (id : NodeId) : Bool := (definition.created registry).any (·.id = id)

end GraphDef

/-! ## Faults -/

/-- Why a link that lists other ids refuses one more. Of these, only nodes that are there take up
room. -/
def ValueLink.refusal? (link : ValueLink) (present : NodeId → Bool) (owner : NodeId)
    (cell : Node β) : Option ScriptError :=
  match cell.valueType with
  | none => some (.notAValueNode cell.id)
  | some type =>
    if cell.id ∈ link.bound then
      some (.connectionRejected (cell.id.text ++ " is already bound to " ++ link.name))
    else if link.allowsMultiple = false ∧ link.bound.any present = true then
      some (.multiplicityExceeded owner link.name)
    else if link.isChecked = true ∧ link.type ≠ type then some (.typeMismatch link.type type)
    else none

namespace GraphDef

variable (definition : GraphDef) (registry : Registry β)

/-- The fault of what has to be there and is not. -/
def missing {ε α : Type} (found : Option α) (fault : ε) : Option ε :=
  if found.isSome then none else some fault

def keyFault? (key : String) : Option LoadError :=
  missing (definition.node? registry key) (.unknownNodeKey key)

def nodeFault? (before : List Piece) (node : NodeDef) : Option LoadError :=
  if node.key ∈ before.filterMap Piece.key? then some (.duplicateNodeKey node.key)
  else match registry.create node.type node.properties with
    | .ok _ => none
    | .error e => some (.core e)

def linkFault? (link : LinkDef) : Option LoadError :=
  (definition.keyFault? registry link.source).or <|
    (definition.keyFault? registry link.target).or <|
      (missing (definition.output? registry link.source link.output)
        (.unknownLink link.source link.output)).or <|
        missing (definition.input? registry link.target link.input)
          (.unknownLink link.target link.input)

def bindingFault? (before : List Piece) (binding : BindingDef) : Option LoadError :=
  (definition.keyFault? registry binding.node).or <|
    (definition.keyFault? registry binding.cell).or <|
      (missing (definition.link? registry binding.node binding.link)
        (.unknownLink binding.node binding.link)).or <|
        (definition.link? registry binding.node binding.link).bind fun found =>
          (definition.node? registry binding.cell).bind fun cell =>
            (ValueLink.refusal? { found.2 with bound := definition.listed registry before found.1 }
              (definition.creates registry) found.1.node cell).map .core

/-- The fault of a piece, if it has one, when others have been built before it. -/
def fault? (before : List Piece) : Piece → Option LoadError
  | .node node => nodeFault? registry before node
  | .link link => definition.linkFault? registry link
  | .binding binding => definition.bindingFault? registry before binding

end GraphDef

/-! ## Definitions without a fault -/

/-- What is authored for the cell of a description fits, if it has one. -/
def NodeBuilder.Takes (builder : NodeBuilder β) (overrides : PropertySet) : Prop :=
  ∀ declared, builder.valueType = some declared →
    ∀ e ∈ overrides, e.1 = cellName → (e.2.coerce declared).isSome = true

/-- Values are refused only for a cell that they do not fit. -/
theorem NodeBuilder.withOverrides_iff : ∀ (overrides : PropertySet) {builder : NodeBuilder β},
    (∃ built, builder.withOverrides overrides = .ok built) ↔ builder.Takes overrides
  | [], builder => iff_of_true ⟨builder, rfl⟩ fun _ _ _ he => nomatch he
  | (name, value) :: rest, builder => by
    have hnext : (∃ next, builder.override name value = .ok next) ↔
        ∀ declared, builder.valueType = some declared → name = cellName →
          (value.coerce declared).isSome = true := by
      unfold override
      split
      · rename_i declared htype hname
        have hall : (∀ declared', builder.valueType = some declared' → name = cellName →
            (value.coerce declared').isSome = true) ↔ (value.coerce declared).isSome = true := by
          refine ⟨fun h => h declared htype (beq_iff_eq.1 hname), fun h declared' htype' _ => ?_⟩
          rwa [← Option.some.inj (htype.symm.trans htype')]
        rw [hall]
        split <;> rename_i hstored
        · exact iff_of_true ⟨_, rfl⟩ (by rw [hstored, Option.isSome_some])
        · exact iff_of_false (fun ⟨_, h⟩ => nomatch h) (by rw [hstored]; nofun)
      · rename_i hcell
        refine iff_of_true ?_ fun declared htype hname =>
          (hcell declared htype (beq_iff_eq.2 hname)).elim
        split
        · exact ⟨_, rfl⟩
        · exact ⟨_, rfl⟩
    have htype : ∀ {next}, builder.override name value = .ok next →
        next.valueType = builder.valueType := by
      intro next hn
      rcases override_eq_ok hn with ⟨_, _, _, -, -, rfl⟩ | ⟨_, -, rfl⟩ | ⟨-, -, rfl⟩ <;> rfl
    constructor
    · rintro ⟨built, hb⟩ declared hdeclared e he
      rw [withOverrides] at hb
      obtain ⟨next, hn, hb⟩ := bind_eq_ok.1 hb
      rcases List.mem_cons.1 he with rfl | he
      · exact hnext.1 ⟨next, hn⟩ declared hdeclared
      · exact (withOverrides_iff rest).1 ⟨built, hb⟩ declared ((htype hn).trans hdeclared) e he
    · intro ht
      obtain ⟨next, hn⟩ := hnext.2 fun declared hdeclared =>
        ht declared hdeclared (name, value) List.mem_cons_self
      have hrest : next.Takes rest := fun declared hdeclared e he =>
        ht declared ((htype hn).symm.trans hdeclared) e (List.mem_cons_of_mem _ he)
      obtain ⟨built, hb⟩ := (withOverrides_iff rest).2 hrest
      exact ⟨built, bind_eq_ok.2 ⟨next, hn, hb⟩⟩

/-- The type is registered and the authored values fit what its factory describes. -/
def Registry.Accepts (registry : Registry β) (node : NodeDef) : Prop :=
  ∃ factory, Keyed.get? registry.factories node.type = some factory
    ∧ (factory node.properties).Takes node.properties

theorem Registry.accepts_iff {registry : Registry β} {node : NodeDef} :
    registry.Accepts node ↔ ∃ builder, registry.create node.type node.properties = .ok builder := by
  unfold Accepts create
  rcases Keyed.get? registry.factories node.type with _ | factory
  · exact iff_of_false (fun ⟨_, h, _⟩ => nomatch h) fun ⟨_, h⟩ => nomatch h
  · simp only [Option.some.injEq, exists_eq_left', NodeBuilder.withOverrides_iff]

/-! ### The nodes that are created -/

namespace Registry

variable (registry : Registry β)

theorem nodes_cons (home : GraphId × NodeDef) (homes : List (GraphId × NodeDef)) (node : Nat) :
    registry.nodes (home :: homes) node =
      ((registry.create home.2.type home.2.properties).toOption.map
        (·.build ⟨node⟩ home.1)).toList ++ registry.nodes homes (node + 1) := by
  unfold nodes
  rw [List.zipIdx_cons, List.filterMap_cons]
  split <;> rename_i h <;> simp only [h, Option.toList] <;> rfl

theorem le_of_mem_nodes : ∀ (homes : List (GraphId × NodeDef)) (node : Nat),
    ∀ n ∈ registry.nodes homes node, node ≤ n.id.raw
  | [], node, n, hn => nomatch hn
  | home :: homes, node, n, hn => by
    rw [nodes_cons, List.mem_append, Option.mem_toList] at hn
    rcases hn with hn | hn
    · obtain ⟨builder, -, rfl⟩ := Option.map_eq_some_iff.1 hn
      exact Nat.le_refl _
    · exact Nat.le_of_succ_le (le_of_mem_nodes homes (node + 1) n hn)

theorem nodup_nodes : ∀ (homes : List (GraphId × NodeDef)) (node : Nat),
    ((registry.nodes homes node).map (·.id)).Nodup
  | [], _ => List.nodup_nil
  | home :: homes, node => by
    rw [nodes_cons, List.map_append, List.nodup_append]
    refine ⟨?_, nodup_nodes homes (node + 1), fun id hid id' hid' heq => ?_⟩
    · cases (registry.create home.2.type home.2.properties).toOption with
      | none => exact List.nodup_nil
      | some builder => exact List.nodup_singleton _
    · obtain ⟨n, hn, rfl⟩ := List.mem_map.1 hid
      obtain ⟨n', hn', rfl⟩ := List.mem_map.1 hid'
      obtain ⟨builder, -, rfl⟩ := Option.map_eq_some_iff.1 (Option.mem_toList.1 hn)
      have hle := registry.le_of_mem_nodes homes (node + 1) n' hn'
      rw [← heq] at hle
      exact absurd hle (Nat.not_succ_le_self _)

end Registry

namespace GraphDef

variable {definition : GraphDef} {registry : Registry β}

theorem mem_created {key : String} {node : Node β}
    (h : definition.node? registry key = some node) : node ∈ definition.created registry := by
  obtain ⟨k, -, hk⟩ := Option.bind_eq_some_iff.1 h
  exact List.mem_of_getElem? hk

theorem link?_eq_some {key name : String} {ref : ValueLinkRef} {link : ValueLink} :
    definition.link? registry key name = some (ref, link) ↔
      ∃ node, definition.node? registry key = some node ∧ node.linkIndex? name = some ref.index
        ∧ node.links[ref.index]? = some link ∧ node.id = ref.node := by
  unfold link?
  simp only [Option.bind_eq_some_iff, Option.map_eq_some_iff, Prod.mk.injEq]
  constructor
  · rintro ⟨node, hn, index, hi, link, hl, rfl, rfl⟩
    exact ⟨node, hn, hi, hl, rfl⟩
  · rintro ⟨node, hn, hi, hl, hid⟩
    exact ⟨node, hn, ref.index, hi, link, hl, by rw [hid], rfl⟩

/-- A reference leads to one value link, whatever names it was found by. -/
theorem link?_unique {key key' name name' : String} {ref : ValueLinkRef} {link link' : ValueLink}
    (h : definition.link? registry key name = some (ref, link))
    (h' : definition.link? registry key' name' = some (ref, link')) : link' = link := by
  obtain ⟨node, hn, -, hl, hid⟩ := link?_eq_some.1 h
  obtain ⟨node', hn', -, hl', hid'⟩ := link?_eq_some.1 h'
  obtain rfl : node' = node := List.inj_on_of_nodup_map
    (registry.nodup_nodes (homes definition.preorder 0) 0) (mem_created hn') (mem_created hn)
    (hid'.trans hid.symm)
  exact Option.some.inj (hl'.symm.trans hl)

/-! ### What faultless pieces amount to -/

variable (definition registry)

/-- The piece can be built whatever was built before it. -/
def Sound : Piece → Prop
  | .node node => registry.Accepts node
  | .link link => (definition.output? registry link.source link.output).isSome = true
    ∧ (definition.input? registry link.target link.input).isSome = true
  | .binding binding => ∃ ref link cell type,
    definition.link? registry binding.node binding.link = some (ref, link)
      ∧ definition.node? registry binding.cell = some cell ∧ cell.valueType = some type
      ∧ (link.isChecked = true → link.type = type)

/-- Pieces can be built one after another. -/
structure Permits (pieces : List Piece) : Prop where
  keys : (pieces.filterMap Piece.key?).Nodup
  sound : ∀ piece ∈ pieces, definition.Sound registry piece
  once : ∀ ref, (definition.held registry pieces ref).Nodup
  single : ∀ key name ref link, definition.link? registry key name = some (ref, link) →
    link.allowsMultiple = false → (definition.held registry pieces ref).length ≤ 1
  fresh : ∀ ref, ∀ id ∈ definition.held registry pieces ref, id ∉ definition.brought registry ref
  vacant : ∀ key name ref link, definition.link? registry key name = some (ref, link) →
    link.allowsMultiple = false → definition.held registry pieces ref ≠ [] →
      ∀ id ∈ definition.brought registry ref, definition.creates registry id = false

/-- What it takes to build a definition. -/
structure Buildable : Prop where
  /-- No key is given to two nodes of the tree. -/
  keys : (definition.entries.map (·.key)).Nodup
  types : ∀ node ∈ definition.entries, registry.Accepts node
  /-- The keys and names of links lead to outputs and inputs. -/
  links : ∀ graph ∈ definition.preorder, ∀ link ∈ graph.links,
    (definition.output? registry link.source link.output).isSome = true
      ∧ (definition.input? registry link.target link.input).isSome = true
  /-- Bindings are of value links and cells that agree in type if this is checked. -/
  bindings : ∀ graph ∈ definition.preorder, ∀ binding ∈ graph.bindings, ∃ ref link cell type,
    definition.link? registry binding.node binding.link = some (ref, link)
      ∧ definition.node? registry binding.cell = some cell ∧ cell.valueType = some type
      ∧ (link.isChecked = true → link.type = type)
  /-- No cell is bound to a value link twice. -/
  once : ∀ ref, (definition.held registry definition.pieces ref).Nodup
  /-- A value link that takes one binding has no more. -/
  single : ∀ key name ref link, definition.link? registry key name = some (ref, link) →
    link.allowsMultiple = false → (definition.held registry definition.pieces ref).length ≤ 1
  /-- No cell is bound to a value link that has been created with it. -/
  fresh : ∀ ref, ∀ id ∈ definition.held registry definition.pieces ref,
    id ∉ definition.brought registry ref
  /-- A value link that takes one binding has none if it has been created with a node of the
  definition. -/
  vacant : ∀ key name ref link, definition.link? registry key name = some (ref, link) →
    link.allowsMultiple = false → definition.held registry definition.pieces ref ≠ [] →
      ∀ id ∈ definition.brought registry ref, definition.creates registry id = false

variable {definition registry}

theorem held_of_bond {piece : Piece} {ref : ValueLinkRef} {cell : NodeId}
    (h : definition.bond? registry piece = some (ref, cell)) (before : List Piece)
    (ref' : ValueLinkRef) : definition.held registry (before ++ [piece]) ref' = if ref' = ref
      then definition.held registry before ref' ++ [cell]
      else definition.held registry before ref' := by
  simp only [held, List.filterMap_append, List.filterMap_cons, List.filterMap_nil, h,
    Script.filter_concat]

theorem held_of_none {piece : Piece} (h : definition.bond? registry piece = none)
    (before : List Piece) :
    definition.held registry (before ++ [piece]) = definition.held registry before := by
  funext ref
  simp only [held, List.filterMap_append, List.filterMap_cons, List.filterMap_nil, h,
    List.append_nil]

theorem missing_eq_none {ε α : Type} {found : Option α} {fault : ε} :
    missing found fault = none ↔ found.isSome = true := by
  unfold missing
  split <;> simp [*]

theorem nodeFault?_eq_none {before : List Piece} {node : NodeDef} :
    nodeFault? registry before node = none ↔
      node.key ∉ before.filterMap Piece.key? ∧ registry.Accepts node := by
  rw [Registry.accepts_iff]
  unfold nodeFault?
  split
  · rename_i hmem
    exact iff_of_false nofun fun h => h.1 hmem
  · rename_i hout
    rw [and_iff_right hout]
    split <;> rename_i hc
    · exact iff_of_true rfl ⟨_, hc⟩
    · refine iff_of_false nofun ?_
      rintro ⟨builder, hb⟩
      cases hc.symm.trans hb

theorem linkFault?_eq_none {link : LinkDef} : definition.linkFault? registry link = none ↔
    (definition.output? registry link.source link.output).isSome = true
      ∧ (definition.input? registry link.target link.input).isSome = true := by
  unfold linkFault? keyFault?
  simp only [Option.or_eq_none_iff, missing_eq_none]
  refine ⟨fun h => h.2.2, fun h => ⟨?_, ?_, h⟩⟩
  · exact Option.isSome_of_isSome_bind h.1
  · exact Option.isSome_of_isSome_bind h.2

end GraphDef

theorem ValueLink.refusal?_eq_none {link : ValueLink} {present : NodeId → Bool} {owner : NodeId}
    {cell : Node β} : link.refusal? present owner cell = none ↔
      ∃ type, cell.valueType = some type ∧ cell.id ∉ link.bound
      ∧ (link.allowsMultiple = false → ∀ id ∈ link.bound, present id = false)
      ∧ (link.isChecked = true → link.type = type) := by
  unfold refusal?
  split
  · rename_i htype
    exact iff_of_false nofun fun ⟨_, h, _⟩ => nomatch htype.symm.trans h
  · rename_i type htype
    simp only [htype, Option.some.injEq, exists_eq_left']
    split
    · rename_i hbound
      exact iff_of_false nofun fun h => h.1 hbound
    split
    · rename_i hfull
      obtain ⟨id, hid, hpresent⟩ := List.any_eq_true.1 hfull.2
      refine iff_of_false nofun fun h => ?_
      rw [h.2.1 hfull.1 id hid] at hpresent
      cases hpresent
    split
    · rename_i hother
      exact iff_of_false nofun fun h => hother.2 (h.2.2 hother.1)
    · rename_i hbound hfull hother
      simp only [not_and, Decidable.not_not, Bool.not_eq_true, List.any_eq_false] at hfull hother
      exact iff_of_true rfl ⟨hbound, hfull, hother⟩

namespace GraphDef

variable {definition : GraphDef} {registry : Registry β}

theorem bindingFault?_eq_none {before : List Piece} {binding : BindingDef} :
    definition.bindingFault? registry before binding = none ↔ ∃ ref link cell,
      definition.link? registry binding.node binding.link = some (ref, link)
        ∧ definition.node? registry binding.cell = some cell
        ∧ ValueLink.refusal? { link with bound := definition.listed registry before ref }
          (definition.creates registry) ref.node cell = none := by
  unfold bindingFault? keyFault?
  simp only [Option.or_eq_none_iff, missing_eq_none]
  constructor
  · rintro ⟨-, hcell, hlink, hrefusal⟩
    obtain ⟨⟨ref, link⟩, hl⟩ := Option.isSome_iff_exists.1 hlink
    obtain ⟨cell, hc⟩ := Option.isSome_iff_exists.1 hcell
    rw [hl, hc, Option.bind_some, Option.bind_some, Option.map_eq_none_iff] at hrefusal
    exact ⟨ref, link, cell, hl, hc, hrefusal⟩
  · rintro ⟨ref, link, cell, hl, hc, hrefusal⟩
    rw [hl, hc, Option.bind_some, Option.bind_some, hrefusal, Option.map_none]
    refine ⟨?_, rfl, rfl, rfl⟩
    obtain ⟨node, hn, -⟩ := link?_eq_some.1 hl
    rw [hn, Option.isSome_some]

theorem bond?_eq_some {binding : BindingDef} {ref : ValueLinkRef} {link : ValueLink}
    {cell : Node β} (hl : definition.link? registry binding.node binding.link = some (ref, link))
    (hc : definition.node? registry binding.cell = some cell) :
    definition.bond? registry (.binding binding) = some (ref, cell.id) := by
  rw [bond?, hl, hc, Option.bind_some, Option.map_some]

theorem keys_concat (before : List Piece) (piece : Piece) :
    ((before ++ [piece]).filterMap Piece.key?).Nodup ↔ (before.filterMap Piece.key?).Nodup
      ∧ ∀ key, piece.key? = some key → key ∉ before.filterMap Piece.key? := by
  rw [List.filterMap_append]
  rcases hkey : piece.key? with _ | key
  · rw [List.filterMap_cons_none hkey, List.filterMap_nil, List.append_nil]
    exact (and_iff_left nofun).symm
  · rw [List.filterMap_cons_some hkey, List.filterMap_nil, ← List.concat_eq_append]
    simp only [Option.some.injEq, forall_eq']
    exact (List.nodup_concat _ _).trans and_comm

theorem sound_concat (before : List Piece) (piece : Piece) :
    (∀ p ∈ before ++ [piece], definition.Sound registry p) ↔
      (∀ p ∈ before, definition.Sound registry p) ∧ definition.Sound registry piece := by
  rw [List.forall_mem_append, List.forall_mem_singleton]

/-- What is bound is a node of the definition. -/
theorem creates_of_held {pieces : List Piece} {ref : ValueLinkRef} {id : NodeId}
    (h : id ∈ definition.held registry pieces ref) : definition.creates registry id = true := by
  obtain ⟨⟨ref', id⟩, hheld, rfl⟩ := List.mem_map.1 h
  obtain ⟨piece, -, hbond⟩ := List.mem_filterMap.1 (List.mem_of_mem_filter hheld)
  cases piece with
  | node node => cases hbond
  | link link => cases hbond
  | binding binding =>
    obtain ⟨found, -, hbond⟩ := Option.bind_eq_some_iff.1 hbond
    obtain ⟨node, hn, heq⟩ := Option.map_eq_some_iff.1 hbond
    obtain ⟨-, rfl⟩ := Prod.mk.inj heq
    exact List.any_eq_true.2 ⟨node, mem_created hn, decide_eq_true rfl⟩

/-- A piece that binds nothing is only a matter of its key and its names. -/
theorem permits_concat_of_none {piece : Piece} (h : definition.bond? registry piece = none)
    (before : List Piece) : definition.Permits registry (before ++ [piece]) ↔
      definition.Permits registry before
        ∧ (∀ key, piece.key? = some key → key ∉ before.filterMap Piece.key?)
        ∧ definition.Sound registry piece := by
  have hheld := held_of_none h before
  constructor
  · rintro ⟨keys, sound, once, single, fresh, vacant⟩
    rw [hheld] at once single fresh vacant
    rw [keys_concat] at keys
    rw [sound_concat] at sound
    exact ⟨⟨keys.1, sound.1, once, single, fresh, vacant⟩, keys.2, sound.2⟩
  · rintro ⟨⟨keys, sound, once, single, fresh, vacant⟩, hfresh, hsound⟩
    refine ⟨(keys_concat _ _).2 ⟨keys, hfresh⟩, (sound_concat _ _).2 ⟨sound, hsound⟩, ?_, ?_, ?_,
      ?_⟩
    all_goals rwa [hheld]

/-- A binding that is allowed after other pieces has no fault after them. -/
theorem Permits.of_binding {before : List Piece} {binding : BindingDef}
    (h : definition.Permits registry (before ++ [.binding binding])) :
    definition.Permits registry before
      ∧ definition.bindingFault? registry before binding = none := by
  obtain ⟨keys, sound, once, single, fresh, vacant⟩ := h
  rw [sound_concat] at sound
  obtain ⟨sound, ref, link, cell, type, hl, hc, htype, hfits⟩ := sound
  have hheld := held_of_bond (bond?_eq_some hl hc) before
  have hbefore : ∀ ref', (definition.held registry before ref').Sublist
      (definition.held registry (before ++ [.binding binding]) ref') := by
    intro ref'
    rw [hheld]
    split
    · exact List.sublist_append_left _ _
    · exact .refl _
  have hself := hheld ref
  rw [if_pos rfl] at hself
  have hbound : cell.id ∈ definition.held registry (before ++ [.binding binding]) ref := by
    rw [hself]
    exact List.mem_append_right _ List.mem_cons_self
  refine ⟨⟨((keys_concat _ _).1 keys).1, sound, fun ref' => (once ref').sublist (hbefore ref'),
    fun key name ref' link' hl' hm => ?_, fun ref' id hid => ?_,
    fun key name ref' link' hl' hm hne => ?_⟩,
    bindingFault?_eq_none.2 ⟨ref, link, cell, hl, hc, ?_⟩⟩
  · exact Nat.le_trans (hbefore ref').length_le (single key name ref' link' hl' hm)
  · exact fresh ref' id ((hbefore ref').subset hid)
  · refine vacant key name ref' link' hl' hm fun hnil => hne ?_
    exact List.sublist_nil.1 (hnil ▸ hbefore ref')
  refine ValueLink.refusal?_eq_none.2 ⟨type, htype, fun hlisted => ?_, fun hm id hid => ?_, hfits⟩
  · rcases List.mem_append.1 hlisted with hold | hold
    · exact fresh ref _ hbound hold
    · have hnodup := once ref
      rw [hself, List.nodup_append] at hnodup
      exact hnodup.2.2 _ hold _ List.mem_cons_self rfl
  · have hlength := single _ _ ref link hl hm
    rw [hself, List.length_append, List.length_singleton] at hlength
    have hnone : definition.held registry before ref = [] := List.length_eq_zero_iff.1 (by omega)
    rcases List.mem_append.1 hid with hid | hid
    · exact vacant _ _ ref link hl hm (List.ne_nil_of_mem hbound) id hid
    · rw [hnone] at hid
      cases hid

theorem Permits.binding {before : List Piece} {binding : BindingDef}
    (h : definition.Permits registry before)
    (hfault : definition.bindingFault? registry before binding = none) :
    definition.Permits registry (before ++ [.binding binding]) := by
  obtain ⟨ref, link, cell, hl, hc, hrefusal⟩ := bindingFault?_eq_none.1 hfault
  obtain ⟨type, htype, hbound, hfree, hfits⟩ := ValueLink.refusal?_eq_none.1 hrefusal
  have hheld := held_of_bond (bond?_eq_some hl hc) before
  have hnew : cell.id ∉ definition.brought registry ref
      ∧ cell.id ∉ definition.held registry before ref :=
    not_or.1 fun hold => hbound (List.mem_append.2 hold)
  refine ⟨(keys_concat _ _).2 ⟨h.keys, nofun⟩,
    (sound_concat _ _).2 ⟨h.sound, ref, link, cell, type, hl, hc, htype, hfits⟩,
    fun ref' => ?_, fun key name ref' link' hl' hm => ?_, fun ref' id hid => ?_,
    fun key name ref' link' hl' hm hne => ?_⟩
  · rw [hheld]
    split
    · rename_i heq
      rw [heq, ← List.concat_eq_append]
      exact (h.once ref).concat hnew.2
    · exact h.once ref'
  · rw [hheld]
    split
    · rename_i heq
      subst heq
      obtain rfl := link?_unique hl hl'
      -- What is bound is there, and would take up the room.
      have hnone : definition.held registry before ref' = [] := by
        refine List.eq_nil_iff_forall_not_mem.2 fun id hid => ?_
        have habsent := hfree hm id (List.mem_append_right _ hid)
        rw [creates_of_held hid] at habsent
        cases habsent
      rw [hnone]
      exact Nat.le_refl _
    · exact h.single key name ref' link' hl' hm
  · rw [hheld] at hid
    split at hid
    · rename_i heq
      rcases List.mem_append.1 hid with hid | hid
      · exact h.fresh ref' id hid
      · rw [List.mem_singleton.1 hid, heq]
        exact hnew.1
    · exact h.fresh ref' id hid
  · rw [hheld] at hne
    split at hne
    · rename_i heq
      subst heq
      obtain rfl := link?_unique hl hl'
      exact fun id hid => hfree hm id (List.mem_append_left _ hid)
    · exact h.vacant key name ref' link' hl' hm hne

/-- Pieces can be built if those before the last can be, and the last then has no fault. -/
theorem permits_concat (before : List Piece) (piece : Piece) :
    definition.Permits registry (before ++ [piece]) ↔
      definition.Permits registry before ∧ definition.fault? registry before piece = none := by
  cases piece with
  | node node =>
    rw [permits_concat_of_none rfl, fault?, nodeFault?_eq_none]
    simp only [Piece.key?, Option.some.injEq, forall_eq', Sound]
  | link link =>
    rw [permits_concat_of_none rfl, fault?, linkFault?_eq_none]
    exact and_congr_right' (and_iff_right nofun)
  | binding binding => exact ⟨Permits.of_binding, fun h => h.1.binding h.2⟩

theorem permits_iff (pieces : List Piece) :
    definition.Permits registry pieces ↔ firstFault (definition.fault? registry) [] pieces = none :=
  (firstFault_eq_none (S := definition.Permits registry) ⟨List.nodup_nil, List.forall_mem_nil _,
    fun _ => List.nodup_nil, fun _ _ _ _ _ _ => Nat.zero_le _, fun _ => List.forall_mem_nil _,
    fun _ _ _ _ _ _ hne => absurd rfl hne⟩ permits_concat pieces).symm

theorem permits_pieces :
    definition.Permits registry definition.pieces ↔ definition.Buildable registry := by
  have hkeys : definition.pieces.filterMap Piece.key? = definition.entries.map (·.key) := by
    have hjoins : (definition.preorder.flatMap joins).filterMap Piece.key? = [] := by
      rw [List.filterMap_eq_nil_iff]
      intro piece hp
      obtain ⟨graph, -, hp⟩ := List.mem_flatMap.1 hp
      rcases List.mem_append.1 hp with hp | hp <;> obtain ⟨_, -, rfl⟩ := List.mem_map.1 hp <;> rfl
    rw [pieces, List.filterMap_append, hjoins, List.append_nil, List.filterMap_map,
      ← List.filterMap_eq_map]
    rfl
  have hsound : (∀ piece ∈ definition.pieces, definition.Sound registry piece) ↔
      (∀ node ∈ definition.entries, definition.Sound registry (.node node))
        ∧ ∀ graph ∈ definition.preorder,
          (∀ link ∈ graph.links, definition.Sound registry (.link link))
            ∧ ∀ binding ∈ graph.bindings, definition.Sound registry (.binding binding) := by
    simp only [pieces, joins, List.forall_mem_append, List.forall_mem_map, List.forall_mem_flatMap]
  constructor
  · rintro ⟨keys, sound, once, single, fresh, vacant⟩
    obtain ⟨hnodes, hgraphs⟩ := hsound.1 sound
    rw [hkeys] at keys
    exact ⟨keys, hnodes, fun graph hg => (hgraphs graph hg).1, fun graph hg => (hgraphs graph hg).2,
      once, single, fresh, vacant⟩
  · rintro ⟨keys, types, links, bindings, once, single, fresh, vacant⟩
    refine ⟨by rwa [hkeys], hsound.2 ⟨types, fun graph hg => ⟨links graph hg, bindings graph hg⟩⟩,
      once, single, fresh, vacant⟩

end GraphDef

end FlowScript
