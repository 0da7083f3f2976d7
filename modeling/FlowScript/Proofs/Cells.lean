import FlowScript.Proofs.Arena
import FlowScript.Proofs.Changes

/-!
# What a cell holds

The first value of a cell declares its type, and a write to the cell converts to this type or is
refused. While the cell is described, though, `property` stores a value in it as it is. So a cell
starts with what the last call that reached it left there (`cell_of_calls`), it never loses the
right type once it has it, and it holds a value of another type only as long as it was not written
since (`Session.cell_kept`).
-/

namespace FlowScript

variable {β : Type}

namespace NodeBuilder

/-- A call on the description of a node. -/
inductive Call where
  | input (name : String)
  | output (name : String)
  | link (link : ValueLink)
  | property (name : String) (value : Property)
  | withOverrides (overrides : PropertySet)

/-- The description after a call. -/
def call (builder : NodeBuilder β) : Call → Except ScriptError (NodeBuilder β)
  | .input name => .ok (builder.input name)
  | .output name => .ok (builder.output name)
  | .link link => .ok (builder.link link)
  | .property name value => .ok (builder.property name value)
  | .withOverrides overrides => builder.withOverrides overrides

/-- What an authored value leaves in a cell that it may be meant for. -/
def overriding (declared : PropertyType) (authored : String × Property) : List Property :=
  if authored.1 = cellName then (authored.2.coerce declared).toList else []

/-- What a call stores in the cell of a description, in order. -/
def Call.stores (declared : PropertyType) : Call → List Property
  | .property name value => if name = cellName then [value] else []
  | .withOverrides overrides => overrides.flatMap (overriding declared)
  | _ => []

/-- What a cell holds after calls on its description. -/
def cellAfter (initial : Property) (calls : List Call) : Property :=
  (calls.flatMap (·.stores initial.type)).getLastD initial

end NodeBuilder

/-- The node is a cell of a type and holds a value, whatever its type. -/
structure Node.Holds (node : Node β) (declared : PropertyType) (value : Property) : Prop where
  kind : node.kind = .value
  declares : node.valueType = some declared
  cell : Keyed.get? node.properties cellName = some value

/-- The node is a cell of a type, and holds a value of it or still the given one. -/
def Node.Guards (node : Node β) (declared : PropertyType) (first : Property) : Prop :=
  ∃ value, node.Holds declared value ∧ (value.type = declared ∨ value = first)

theorem Node.Holds.value? {node : Node β} {declared : PropertyType} {value : Property}
    (h : node.Holds declared value) : node.value? = some value :=
  (if_pos (beq_iff_eq.2 h.kind)).trans h.cell

/-! ## Descriptions -/

theorem getLastD_append {α : Type} (l l' : List α) (a : α) :
    (l ++ l').getLastD a = l'.getLastD (l.getLastD a) := by
  simp only [List.getLastD_eq_getLast?, List.getLast?_append]
  cases l'.getLast? <;> rfl

namespace NodeBuilder

variable {builder built : NodeBuilder β} {id : NodeId} {graph : GraphId}
  {declared : PropertyType} {value : Property}

theorem holds_property (h : (builder.build id graph).Holds declared value) (name : String)
    (stored : Property) : ((builder.property name stored).build id graph).Holds declared
      (if name = cellName then stored else value) := by
  refine ⟨h.kind, h.declares, ?_⟩
  simp only [build, property, Keyed.get?_insert]
  split
  · rfl
  · exact h.cell

theorem holds_override (h : (builder.build id graph).Holds declared value)
    {authored : String × Property} (ho : builder.override authored.1 authored.2 = .ok built) :
    (built.build id graph).Holds declared ((overriding declared authored).getLastD value) := by
  have hdeclares : builder.valueType = some declared := h.declares
  unfold override at ho
  unfold overriding
  split at ho
  · rename_i declared' htype hname
    obtain rfl := Option.some.inj (htype.symm.trans hdeclares)
    have hname : authored.1 = cellName := beq_iff_eq.1 hname
    split at ho
    · rename_i stored hstored
      obtain rfl := Except.ok.inj ho
      have hp := holds_property h authored.1 stored
      rw [if_pos hname] at hp
      rw [if_pos hname, hstored]
      exact hp
    · cases ho
  · rename_i hcell
    -- A type is declared, so the name is not that of the cell.
    have hname : authored.1 ≠ cellName := fun heq => hcell declared hdeclares (beq_iff_eq.2 heq)
    rw [if_neg hname]
    split at ho <;> obtain rfl := Except.ok.inj ho
    · exact ⟨h.kind, h.declares, h.cell⟩
    · have hp := holds_property h authored.1 authored.2
      rwa [if_neg hname] at hp

theorem holds_withOverrides : ∀ (overrides : PropertySet) {builder : NodeBuilder β}
    {value : Property}, (builder.build id graph).Holds declared value →
      builder.withOverrides overrides = .ok built → (built.build id graph).Holds declared
        ((overrides.flatMap (overriding declared)).getLastD value)
  | [], builder, value, h, ho => by
    rw [withOverrides] at ho
    obtain rfl := Except.ok.inj ho
    exact h
  | authored :: rest, builder, value, h, ho => by
    rw [withOverrides] at ho
    obtain ⟨next, hn, ho⟩ := bind_eq_ok.1 ho
    rw [List.flatMap_cons, getLastD_append]
    exact holds_withOverrides rest (holds_override h hn) ho

theorem holds_call (h : (builder.build id graph).Holds declared value) {call : Call}
    (hc : builder.call call = .ok built) :
    (built.build id graph).Holds declared ((call.stores declared).getLastD value) := by
  cases call with
  | withOverrides overrides => exact holds_withOverrides overrides h hc
  | property name stored =>
    obtain rfl := Except.ok.inj hc
    have hp := holds_property h name stored
    rw [Call.stores]
    split <;> rename_i hname
    · rwa [if_pos hname] at hp
    · rwa [if_neg hname] at hp
  | _ =>
    obtain rfl := Except.ok.inj hc
    exact ⟨h.kind, h.declares, h.cell⟩

theorem holds_calls : ∀ (calls : List Call) {builder : NodeBuilder β} {value : Property},
    (builder.build id graph).Holds declared value →
      calls.foldlM call builder = .ok built → (built.build id graph).Holds declared
        ((calls.flatMap (·.stores declared)).getLastD value)
  | [], builder, value, h, hc => by
    obtain rfl := Except.ok.inj hc
    exact h
  | first :: calls, builder, value, h, hc => by
    rw [List.foldlM_cons] at hc
    obtain ⟨next, hn, hc⟩ := bind_eq_ok.1 hc
    rw [List.flatMap_cons, getLastD_append]
    exact holds_calls calls (holds_call h hn) hc

/-- A cell that is described starts with what the last call that reached it left there. -/
theorem holds_of_calls {type : TypeId} {initial : Property} {behavior : β} {calls : List Call}
    (h : calls.foldlM call (.value type initial behavior) = .ok built) :
    (built.build id graph).Holds initial.type (cellAfter initial calls) :=
  holds_calls calls ⟨rfl, rfl, rfl⟩ h

theorem cellAfter_cases (initial : Property) (calls : List Call) :
    (cellAfter initial calls).type = initial.type
      ∨ .property cellName (cellAfter initial calls) ∈ calls := by
  have hlast : cellAfter initial calls ∈ initial :: calls.flatMap (·.stores initial.type) :=
    List.getLastD_mem_cons
  rcases List.mem_cons.1 hlast with heq | hlast
  · exact .inl (congrArg Property.type heq)
  obtain ⟨call, hcall, hlast⟩ := List.mem_flatMap.1 hlast
  cases call with
  | property name value =>
    rw [Call.stores] at hlast
    split at hlast
    · rename_i hname
      rw [List.mem_singleton.1 hlast, ← hname]
      exact .inr hcall
    · cases hlast
  | withOverrides overrides =>
    obtain ⟨authored, -, hlast⟩ := List.mem_flatMap.1 hlast
    rw [overriding] at hlast
    split at hlast
    · exact .inl (Property.type_of_coerce (Option.mem_toList.1 hlast))
    · cases hlast
  | _ => cases hlast

end NodeBuilder

/-! ## Nodes in a script -/

namespace Node.Guards

variable {node node' : Node β} {declared : PropertyType} {first : Property}

theorem congr (h : node.Guards declared first) (hk : node'.kind = node.kind)
    (ht : node'.valueType = node.valueType) (hp : node'.properties = node.properties) :
    node'.Guards declared first := by
  obtain ⟨value, held, hvalue⟩ := h
  exact ⟨value, ⟨hk ▸ held.kind, ht ▸ held.declares, hp ▸ held.cell⟩, hvalue⟩

theorem setValue (h : node.Guards declared first) (value : Property) :
    (node.setValue value).2.Guards declared first := by
  have ⟨_, held, _⟩ := h
  unfold Node.setValue
  split
  · rename_i stored hstored
    rw [held.declares, Option.bind_some] at hstored
    refine ⟨stored, ⟨held.kind, held.declares, ?_⟩, .inl (Property.type_of_coerce hstored)⟩
    rw [Keyed.get?_insert, if_pos rfl]
  · exact h

theorem setLocalProperty (h : node.Guards declared first) (name : String) (value : Property) :
    (node.setLocalProperty name value).2.Guards declared first := by
  have ⟨cell, held, hcell⟩ := h
  unfold Node.setLocalProperty
  split
  · exact h.setValue value
  rename_i hname
  split
  · exact h.congr rfl rfl rfl
  · have hvalue : node.isValueNode = true := beq_iff_eq.2 held.kind
    have hname : name ≠ cellName := by simpa [hvalue] using hname
    refine ⟨cell, ⟨held.kind, held.declares, ?_⟩, hcell⟩
    rw [Keyed.get?_insert, if_neg hname]
    exact held.cell

/-- No change of a cell gives it a value of another type. -/
theorem change (hc : node.Change node') (h : node.Guards declared first) :
    node'.Guards declared first := by
  cases hc with
  | linked same =>
    simp only [cleared, Node.mk.injEq] at same
    obtain ⟨-, -, -, hkind, htype, -, -, -, hproperties, -⟩ := same
    exact h.congr hkind htype hproperties
  | default index value => exact h.congr rfl rfl rfl
  | cell value => exact h.setValue value
  | written name value => exact h.setLocalProperty name value
  | booked booked =>
    obtain ⟨behavior, outputs, rfl, -⟩ := booked
    exact h.congr rfl rfl rfl

theorem changes (hc : node.Changes node') (h : node.Guards declared first) :
    node'.Guards declared first := by
  induction hc with
  | refl => exact h
  | tail _ hlast ih => exact ih.change hlast

end Node.Guards

namespace Script

/-- The counters that ids are taken from only go up. -/
theorem counters_edit (script : Script β) (change : Edit β) :
    script.nextNode ≤ (script.edit change).nextNode
      ∧ script.nextGraph ≤ (script.edit change).nextGraph := by
  have start : script.nextNode ≤ script.nextNode ∧ script.nextGraph ≤ script.nextGraph :=
    ⟨Nat.le_refl _, Nat.le_refl _⟩
  have same {after : Script β} (hn : after.nextNode = script.nextNode)
      (hg : after.nextGraph = script.nextGraph) :
      script.nextNode ≤ after.nextNode ∧ script.nextGraph ≤ after.nextGraph :=
    ⟨Nat.le_of_eq hn.symm, Nat.le_of_eq hg.symm⟩
  generalize script.edit change = after, script.becomes_edit change = hb
  cases hb with
  | refused => exact start
  | addGraph done =>
    unfold Script.addGraph at done
    split at done
    · obtain rfl := Except.ok.inj done
      exact ⟨Nat.le_refl _, Nat.le_succ _⟩
    · cases done
  | renamed graph name => exact start
  | removeGraph done =>
    refine removeGraph_keeps (P := fun s => script.nextNode ≤ s.nextNode
      ∧ script.nextGraph ≤ s.nextGraph) (fun hr hs => ?_) (fun _ _ hs => hs) done start
    obtain ⟨-, -, -, -, hgraph, hnode⟩ := filing_removeNode hr
    rwa [hgraph, hnode]
  | addNode asked done =>
    obtain ⟨-, rfl⟩ := addNode_eq_ok done
    exact ⟨Nat.le_succ _, Nat.le_refl _⟩
  | removeNode done =>
    obtain ⟨-, -, -, -, hgraph, hnode⟩ := filing_removeNode done
    exact same hnode hgraph
  | rewired alike =>
    exact same (congrArg Script.nextNode alike :) (congrArg Script.nextGraph alike :)
  | bound done =>
    obtain ⟨-, rfl⟩ := connectValue_eq_ok.1 done
    exact start
  | unbound ref cell =>
    unfold disconnectValue
    split
    · exact start
    split <;> exact start
  | written asked alike =>
    exact same (congrArg Script.nextNode alike :) (congrArg Script.nextGraph alike :)

/-- An id that was given away is a cell of the type as long as it names a node. -/
structure Guards (script : Script β) (id : NodeId) (declared : PropertyType) (first : Property) :
    Prop where
  given : id.raw < script.nextNode
  cell : ∀ node, script.node? id = some node → node.Guards declared first

namespace Guards

variable {script script' : Script β} {id : NodeId} {declared : PropertyType} {first : Property}

theorem of_changes (h : script.Guards id declared first) (hc : script.Changes script')
    (hn : script.nextNode ≤ script'.nextNode) : script'.Guards id declared first := by
  refine ⟨Nat.lt_of_lt_of_le h.given hn, fun node' hn' => ?_⟩
  obtain ⟨node, hn, hchanges⟩ := hc id node' hn'
  exact (h.cell node hn).changes hchanges

theorem edit (h : script.Guards id declared first) (change : Edit β) :
    (script.edit change).Guards id declared first := by
  rcases script.changes_edit change with hc | ⟨graph, builder, added, -, ha, heq⟩
  · exact h.of_changes hc (script.counters_edit change).1
  · refine ⟨Nat.lt_of_lt_of_le h.given (script.counters_edit change).1, fun node hn => ?_⟩
    rw [heq] at hn
    obtain ⟨-, rfl⟩ := addNode_eq_ok ha
    have hnew : ⟨script.nextNode⟩ ≠ id := by
      rintro rfl
      exact Nat.lt_irrefl _ h.given
    rw [script.node?_withNode graph builder id, if_neg hnew, Option.or_none] at hn
    exact h.cell node hn

end Guards

end Script

namespace Director

variable [Behavior β]

theorem Session.guards {permits : Move β → Prop} {start director : Director β} {id : NodeId}
    {declared : PropertyType} {first : Property} (h : start.Session permits director)
    (hs : start.script.Guards id declared first) :
    director.script.Guards id declared first := by
  refine h.keeps (P := (Script.Guards · id declared first)) (fun _ change _ h => h.edit change)
    (fun m hm => ?_) hs
  have hnext : m.outcome.2.script.nextNode = m.director.script.nextNode :=
    (congrArg Script.nextNode (Script.skeleton_lasting.outcome m) :)
  exact hm.of_changes (Script.changes_lasting.outcome m) (Nat.le_of_eq hnext.symm)

/-- A cell that was described by any calls and placed in a script keeps the type that its first
value declared, whatever the host and the behaviors do. It holds what the calls left there or a
value of its type, and what it holds gives way to a value of its type only. Other than through
`property`, no value of another type gets in. -/
theorem Session.cell_kept {start director after : Director β} {type : TypeId} {initial : Property}
    {behavior : β} {calls : List NodeBuilder.Call} {builder : NodeBuilder β} {graph : GraphId}
    {added : NodeId × Script β} (reachable : start.script.Reachable fun _ => True)
    (described : calls.foldlM NodeBuilder.call (.value type initial behavior) = .ok builder)
    (placed : start.script.addNode graph builder = .ok added)
    (session : Session (fun _ => True) { start with script := added.2 } director) {node : Node β}
    (found : director.script.node? added.1 = some node)
    (later : director.Session (fun _ => True) after) {node' : Node β}
    (found' : after.script.node? added.1 = some node') :
    (added.2.node? added.1).bind (·.value?) = some (NodeBuilder.cellAfter initial calls)
      ∧ ((NodeBuilder.cellAfter initial calls).type = initial.type
        ∨ .property cellName (NodeBuilder.cellAfter initial calls) ∈ calls)
      ∧ node.valueType = some initial.type ∧ node'.valueType = some initial.type
      ∧ ∃ value value', node.value? = some value ∧ node'.value? = some value'
        ∧ (value.type = initial.type ∨ value = NodeBuilder.cellAfter initial calls)
        ∧ (value'.type = initial.type ∨ value' = value) := by
  obtain ⟨-, rfl⟩ := Script.addNode_eq_ok placed
  have hnew : (start.script.withNode graph builder).node? ⟨start.script.nextNode⟩ =
      some (builder.build ⟨start.script.nextNode⟩ graph) := by
    rw [Script.node?_withNode, reachable.arena.filed.node?_next, Option.none_or, if_pos rfl]
  have hbuilt : (builder.build ⟨start.script.nextNode⟩ graph).Holds initial.type
      (NodeBuilder.cellAfter initial calls) := NodeBuilder.holds_of_calls described
  have hplaced : (start.script.withNode graph builder).Guards ⟨start.script.nextNode⟩
      initial.type (NodeBuilder.cellAfter initial calls) := by
    refine ⟨Nat.lt_succ_self _, fun first hfirst => ?_⟩
    obtain rfl := Option.some.inj (hnew.symm.trans hfirst)
    exact ⟨_, hbuilt, .inr rfl⟩
  have hnow := session.guards hplaced
  obtain ⟨value, held, hvalue⟩ := hnow.cell node found
  have hthen : director.script.Guards ⟨start.script.nextNode⟩ initial.type value := by
    refine ⟨hnow.given, fun same hsame => ?_⟩
    obtain rfl := Option.some.inj (found.symm.trans hsame)
    exact ⟨value, held, .inr rfl⟩
  obtain ⟨value', held', hvalue'⟩ := (later.guards hthen).cell node' found'
  refine ⟨?_, NodeBuilder.cellAfter_cases initial calls, held.declares, held'.declares, value,
    value', held.value?, held'.value?, hvalue, hvalue'⟩
  rw [hnew, Option.bind_some, hbuilt.value?]

end Director

/-- A cell for a number that was described with a truth value in it. -/
def counter : NodeBuilder Standard :=
  ((NodeBuilder.value ⟨"Count", "Test"⟩ (.int 5) .inert).property cellName (.bool true)).output
    "Full"

/-- The cell in a script of its own. -/
def counting : Director Standard :=
  { script := (Script.withRootName "root").withNode rootGraph counter }

theorem counter_described : [NodeBuilder.Call.property cellName (.bool true), .output "Full"].foldlM
    NodeBuilder.call (.value ⟨"Count", "Test"⟩ (.int 5) Standard.inert) = .ok counter := rfl

/-- The cell declares a number and holds a truth value until a number is written. -/
theorem Director.cell_kept_of_counter : ∃ node node' value value',
    counting.script.node? ⟨0⟩ = some node ∧ node.valueType = some .int
      ∧ node.value? = some value ∧ value.type = .bool
      ∧ (counting.move (.edit (.setValue ⟨0⟩ (.int 7)))).script.node? ⟨0⟩ = some node'
      ∧ node'.valueType = some .int ∧ node'.value? = some value' ∧ value'.type = .int := by
  have hnode : (counting.script.node? ⟨0⟩).isSome = true := by decide +kernel
  have hnode' : ((counting.move (.edit (.setValue ⟨0⟩ (.int 7)))).script.node? ⟨0⟩).isSome = true :=
    by decide +kernel
  obtain ⟨node, hn⟩ := Option.isSome_iff_exists.1 hnode
  obtain ⟨node', hn'⟩ := Option.isSome_iff_exists.1 hnode'
  obtain ⟨-, -, htype, htype', value, value', hvalue, hvalue', -, -⟩ :=
    @Session.cell_kept Standard _ { script := .withRootName "root" } counting _ _ _ _ _ counter
      rootGraph (⟨0⟩, counting.script) (.fresh "root") counter_described rfl .start node hn
      (.move (.edit (.setValue ⟨0⟩ (.int 7))) trivial .start) node' hn'
  have held : ((counting.script.node? ⟨0⟩).bind (·.value?)).map (·.type) = some .bool := by
    decide +kernel
  have held' : (((counting.move (.edit (.setValue ⟨0⟩ (.int 7)))).script.node? ⟨0⟩).bind
      (·.value?)).map (·.type) = some .int := by
    decide +kernel
  rw [hn, Option.bind_some, hvalue] at held
  rw [hn', Option.bind_some, hvalue'] at held'
  exact ⟨node, node', value, value', hn, htype, hvalue, Option.some.inj held, hn', htype', hvalue',
    Option.some.inj held'⟩

/-- A host can come by a cell that holds a value of another type than it declares, although an
authored value of this type is refused. -/
theorem Script.ill_typed_of_counter : counting.script.Reachable NodeBuilder.Made
    ∧ (∃ node, counting.script.node? ⟨0⟩ = some node ∧ node.isValueNode = true
      ∧ node.valueType = some .int ∧ node.value? = some (.bool true))
    ∧ (NodeBuilder.value ⟨"Count", "Test"⟩ (.int 5) Standard.inert).withOverrides
        [(cellName, .bool true)] = .error (.typeMismatch .int .bool) := by
  refine ⟨?_, ⟨_, rfl, rfl, rfl, rfl⟩, rfl⟩
  exact .edited (.addNode rootGraph counter) (.output _ (.property _ _ (.value _ _ _)))
    (.fresh "root")

end FlowScript
