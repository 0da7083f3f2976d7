import FlowScript.Proofs.Reading
import FlowScript.Proofs.Recreation
import FlowScript.Proofs.Staying
import Mathlib.Algebra.Group.Int.Defs
import Mathlib.Algebra.Group.Nat.Defs
import Mathlib.Data.List.Induction

/-!
# What a switch fires

A call of a switch pulses one output and stores the next index, or does nothing, as its index says
(`Moment.presses`). So as long as nobody else writes what it goes by, its outputs are pulsed in
their order, and when it loops they are pulsed in turn.
-/

namespace FlowScript

variable {β σ : Type}

/-! ## One call -/

namespace Standard

/-- The output, counted from one, that a switch with so many outputs pulses when it stands at an
index. -/
def next? (outputs : Nat) (looping : Bool) (index : Int64) : Option Int64 :=
  if max index.toInt 1 ≤ outputs then some (max index 1) else if looping then some 1 else none

/-- What a switch does when it is to pulse an output. -/
def switchFrom (index : Int64) : Act σ Bool := do
  let _ ← Act.pulse (index.toInt - 1).toNat
  Act.write "CurrentIndex" (.int (← successor index))
  return false

theorem switchAct_of_ne {input : Option Nat} (h : input ≠ some 1) : (switchAct input : Act σ Bool) =
    (do
      let count ← Act.ask .outputCount
      let stored ← Act.getInt "CurrentIndex"
      if (count : Int) < max stored.toInt 1 then
        if ← Act.getBool "Looping" then switchFrom 1 else return false
      else switchFrom (max stored 1)) := by
  unfold switchAct
  rw [if_neg h]
  rfl

section call

variable {turn turn' : Turn β} {node : Node β} {s s' : σ} {input : Option Nat} {index : Int64}
  {looping : Bool} {verdict : Verdict} {pulses : List Nat}

theorem switchAct_reset : (switchAct (some 1) : Act σ Bool).Runs s turn (.ok false) s
    { turn with script :=
        (turn.script.setProperty turn.activation.node "CurrentIndex" (.int 1)).2 } [] := by
  unfold switchAct
  rw [if_pos rfl]
  exact .bind (.write _ _) (.pure false)

/-- From an output that is not the last that can be counted, a switch goes on to the next. -/
theorem switchFrom_runs (hn : turn.node? = some node) (h : index ≠ Int64.maxValue)
    (hi : (index.toInt - 1).toNat < node.outputs.length) :
    (switchFrom index : Act σ Bool).Runs s turn (.ok false) s
      { (turn.pulse (index.toInt - 1).toNat).2 with
        script := ((turn.pulse (index.toInt - 1).toNat).2.script.setProperty
          turn.activation.node "CurrentIndex" (.int (index + 1))).2 }
      [(index.toInt - 1).toNat] := by
  have hnext : (successor index : Act σ Int64) = pure (index + 1) := if_neg h
  unfold switchFrom
  rw [hnext, ← turn.pulse_activation (index.toInt - 1).toNat]
  exact .bind (.pulse hn hi) (.bind (.pure _) (.bind (.write _ _) (.pure false)))

/-- There is no index after the largest one. -/
theorem switchFrom_overflows (s : σ) (turn : Turn β) : ∃ (turn' : Turn β) (pulses : List Nat),
    (switchFrom Int64.maxValue : Act σ Bool).Runs s turn
      (.error (.panicked (some "attempt to add with overflow"))) s turn' pulses := by
  have hnext : (successor Int64.maxValue : Act σ Int64)
      = Act.panic (some "attempt to add with overflow") := if_pos rfl
  unfold switchFrom
  rw [hnext]
  exact ⟨_, _, .bind (.ask (.pulse _)) (.stop (.panic _))⟩

theorem outputCount_answer (hn : turn.node? = some node) :
    (turn.answer .outputCount).1 = node.outputs.length := by
  rw [Turn.answer, hn, Option.elim_some]

section reads

variable (hn : turn.node? = some node) (hinput : input ≠ some 1)
  (hi : (turn.script.property? turn.activation.node "CurrentIndex").bind (·.asInt?) = some index)

include hn hinput hi

theorem switchAct_within (hle : max index.toInt 1 ≤ node.outputs.length)
    (h : (switchFrom (max index 1) : Act σ Bool).Runs s turn verdict s' turn' pulses) :
    (switchAct input : Act σ Bool).Runs s turn verdict s' turn' pulses := by
  rw [switchAct_of_ne hinput]
  refine .bind (.ask .outputCount) (.bind (.read hi) ?_)
  rw [outputCount_answer hn, if_neg (Int.not_lt.2 hle)]
  exact h

theorem switchAct_past (hlt : node.outputs.length < max index.toInt 1)
    (hl : (turn.script.property? turn.activation.node "Looping").bind (·.asBool?) = some looping)
    (h : (if looping then switchFrom 1 else pure false : Act σ Bool).Runs s turn verdict s' turn'
      pulses) :
    (switchAct input : Act σ Bool).Runs s turn verdict s' turn' pulses := by
  rw [switchAct_of_ne hinput]
  refine .bind (.ask .outputCount) (.bind (.read hi) ?_)
  rw [outputCount_answer hn, if_pos hlt]
  exact .bind (.read hl) h

end reads

end call

/-- The output, counted from one, that a call of a switch pulses. -/
def press? (outputs : Nat) (looping : Bool) (input : Option Nat) (index : Int64) : Option Int64 :=
  if input = some 1 then none else next? outputs looping index

/-- The index at which a switch stands after a call. -/
def turned (outputs : Nat) (looping : Bool) (input : Option Nat) (index : Int64) : Int64 :=
  if input = some 1 then 1 else (next? outputs looping index).elim index (· + 1)

theorem toInt_max_one (index : Int64) : (max index 1).toInt = max index.toInt 1 := by
  have hmax : max index 1 = if index ≤ 1 then 1 else index := rfl
  have hone : (1 : Int64).toInt = 1 := rfl
  rw [hmax]
  split
  · rename_i hle
    rw [Int64.le_iff_toInt_le] at hle
    omega
  · rename_i hlt
    rw [Int64.le_iff_toInt_le] at hlt
    omega

/-- What is pulsed next is there. -/
theorem next?_bounds {outputs : Nat} {looping : Bool} {index next : Int64} (hone : 1 ≤ outputs)
    (h : next? outputs looping index = some next) : 1 ≤ next.toInt ∧ next.toInt ≤ outputs := by
  unfold next? at h
  split at h
  · obtain rfl := Option.some.inj h
    rw [toInt_max_one]
    omega
  · split at h
    · obtain rfl := Option.some.inj h
      have hone' : (1 : Int64).toInt = 1 := rfl
      omega
    · cases h

/-- A switch has at least one output. -/
theorem outputCount_bounds {properties : PropertySet}
    (few : outputCount properties ≠ Int64.maxValue) :
    1 ≤ (outputCount properties).toInt.toNat
      ∧ (outputCount properties).toInt.toNat < 2 ^ 63 - 1 := by
  have hne : (outputCount properties).toInt ≠ Int64.maxValue.toInt := fun heq =>
    few (Int64.toInt_inj.1 heq)
  have hlargest : Int64.maxValue.toInt = 2 ^ 63 - 1 := by decide
  have hle := (outputCount properties).toInt_le
  have hone : 1 ≤ (outputCount properties).toInt := by
    rw [outputCount, toInt_max_one]
    omega
  omega

end Standard

open Standard

/-! ## Where a switch stands -/

variable {embed : Standard → β} {id : NodeId} {properties : PropertySet} {index : Int64}
  {looping : Bool} {cells : List NodeId}

/-- What a switch goes by: the index and the flag that it reads, and the cells that are bound to its
index. -/
def Script.gauge (script : Script β) (id : NodeId) :
    Option Property × Option Property × List NodeId :=
  (script.property? id "CurrentIndex", script.property? id "Looping", script.liveBindings ⟨id, 0⟩)

/-- The node is a switch that stands at an index, and the cells that are bound to it are cells of
integers. -/
structure Script.Stands (script : Script β) (embed : Standard → β) (id : NodeId)
    (properties : PropertySet) (looping : Bool) (cells : List NodeId) (index : Int64) : Prop where
  holds : script.Holds id (switchNode properties).shape (embed .switch)
  gauge : script.gauge id = (some (.int index), some (.bool looping), cells)
  integers : ∀ cell ∈ cells, ∀ node, script.node? cell = some node → node.valueType = some .int

namespace Script.Stands

variable {script script' : Script β}
  (h : script.Stands embed id properties looping cells index)

include h

theorem reads_index : script.property? id "CurrentIndex" = some (.int index) :=
  (congrArg Prod.fst h.gauge :)

theorem reads_looping : script.property? id "Looping" = some (.bool looping) :=
  (congrArg (·.2.1) h.gauge :)

theorem live : script.liveBindings ⟨id, 0⟩ = cells :=
  (congrArg (·.2.2) h.gauge :)

/-- What a switch stores is read by it, and it goes on looping or not as before. -/
theorem written (hs : script'.skeleton = script.skeleton) (hr : script.Readable script')
    (next : Int64) : (script'.setProperty id "CurrentIndex" (.int next)).2.gauge id
      = (some (.int next), some (.bool looping), cells) := by
  obtain ⟨node, hn, hshape, -⟩ := h.holds
  obtain ⟨node', hn', hsame⟩ := node?_of_skeleton hs.symm hn
  have hshape' : node'.shape = (switchNode properties).shape :=
    (Node.shape_of_skeleton hsame.symm).trans hshape
  have hindex : node'.linkIndex? "CurrentIndex" = some 0 := Node.linkIndex?_of_shape hshape' _
  have hlooping : node'.linkIndex? "Looping" = none := Node.linkIndex?_of_shape hshape' _
  have hlive : script'.liveBindings ⟨id, 0⟩ = cells := (congrFun hr.liveBindings _).trans h.live
  have takes : script'.Takes ⟨id, 0⟩ (.int next) := by
    constructor
    · have hlength := congrArg (fun builder : NodeBuilder Unit => builder.links.length) hshape'
      have hlinks : 0 < node'.links.length :=
        Nat.lt_of_lt_of_eq Nat.one_pos (((List.length_map _).symm.trans hlength).symm :)
      rw [link?, hn', Option.bind_some, List.getElem?_eq_getElem hlinks, Option.isSome_some]
    · intro cell hc other ho
      obtain ⟨old, hold, hsame⟩ := node?_of_skeleton hs ho
      have htype : other.valueType = old.valueType := (congrArg Node.valueType hsame :)
      rw [htype, h.integers cell (hlive ▸ hc) old hold]
      rfl
  have hread : script'.property? id "Looping" = some (.bool looping) := by
    rw [hr.property?, h.reads_looping]
  rw [Script.gauge, property?_setProperty hn' hindex takes,
    property?_setProperty_plain hn' hlooping (by decide), hread,
    liveBindings_of_skeleton (setProperty_skeleton _ _ _ _), hlive]

/-- The switch stands at the index that its gauge shows, as long as nothing is removed. -/
theorem turned (hs : script'.skeleton = script.skeleton)
    (holds : script'.Holds id (switchNode properties).shape (embed .switch)) {next : Int64}
    (gauge : script'.gauge id = (some (.int next), some (.bool looping), cells)) :
    script'.Stands embed id properties looping cells next := by
  refine ⟨holds, gauge, fun cell hc node' hn' => ?_⟩
  obtain ⟨node, hn, hsame⟩ := node?_of_skeleton hs hn'
  rw [show node'.valueType = node.valueType from (congrArg Node.valueType hsame :)]
  exact h.integers cell hc node hn

end Script.Stands

theorem Script.Readable.gauge {script script' : Script β} (h : script.Readable script')
    (id : NodeId) : script'.gauge id = script.gauge id := by
  rw [Script.gauge, Script.gauge, h.property?, h.liveBindings]

/-- The outputs of a switch, by their names. -/
theorem Node.output_of_switch {node : Node β} (h : node.shape = (switchNode properties).shape) :
    node.outputs.length = (outputCount properties).toInt.toNat
      ∧ ∀ k < node.outputs.length, ∃ output, node.outputs[k]? = some output
        ∧ output.name = "Out" ++ (k + 1).repr := by
  have hshapes : node.outputs.map OutputLink.shape
      = (switchNode properties).outputs.map OutputLink.shape :=
    (congrArg NodeBuilder.outputs h :)
  rw [outputs_switchNode, List.map_map] at hshapes
  have hlength := congrArg List.length hshapes
  rw [List.length_map, List.length_map, List.length_range] at hlength
  refine ⟨hlength, fun k hk => ⟨node.outputs[k], List.getElem?_eq_getElem hk, ?_⟩⟩
  have hat := congrArg (fun links : List OutputLink => links[k]?.map (·.name)) hshapes
  simp only [List.getElem?_map, List.getElem?_eq_getElem hk, List.getElem?_range (hlength ▸ hk),
    Option.map_some, Option.some.injEq] at hat
  exact hat

section calls

variable [Behavior β]

theorem Hosts.switches (hosts : Hosts embed) :
    Performs (fun input _ => switchAct input) fun _ : Unit => embed .switch :=
  have performs : Performs (fun input _ => switchAct input) fun _ : Unit => Standard.switch :=
    fun _ _ _ => rfl
  hosts.performs performs

namespace Moment

/-- A call of a switch with so many outputs that stands at an index. It pulses one of its outputs
and stores the index that comes next, is reset, or leaves everything as it is. -/
structure Presses (m : Moment β) (outputs : Nat) (looping : Bool) (index : Int64) : Prop where
  stood : m.director.script.property? m.activation.node "CurrentIndex" = some (.int index)
  returns : m.Returns false
    ((press? outputs looping m.activation.input index).map
      fun next => (next.toInt - 1).toNat).toList
  /-- What is pulsed is there, and carries its number. -/
  output (next : Int64) : press? outputs looping m.activation.input index = some next →
    ∃ node output, m.target? = some node ∧ node.outputs[(next.toInt - 1).toNat]? = some output
      ∧ output.name = "Out" ++ next.toInt.toNat.repr
  stored : m.outcome.2.script.property? m.activation.node "CurrentIndex"
    = some (.int (Standard.turned outputs looping m.activation.input index))
  /-- Past its last output a switch that does not loop changes nothing. -/
  idle : m.activation.input ≠ some 1 → next? outputs looping index = none →
    m.outcome.2.script.property? = m.director.script.property?

variable {m : Moment β} {node : Node β}

omit [Behavior β] in
/-- How the act of a switch goes in a call of it. -/
theorem runs_of_stands
    (h : m.director.script.Stands embed m.activation.node properties looping cells index)
    (ht : m.target? = some node) (hone : 1 ≤ node.outputs.length)
    (few : node.outputs.length < 2 ^ 63 - 1) :
    ∃ turn' : Turn β, turn'.frames = [] ∧ turn'.signalled = []
      ∧ (switchAct m.activation.input : Act Unit Bool).Runs () (m.start node) (.ok false) () turn'
        ((press? node.outputs.length looping m.activation.input index).map
          fun next => (next.toInt - 1).toNat).toList
      ∧ turn'.script.gauge m.activation.node = (some (.int (Standard.turned node.outputs.length
        looping m.activation.input index)), some (.bool looping), cells)
      ∧ (m.activation.input ≠ some 1 → next? node.outputs.length looping index = none →
        m.director.script.Readable turn'.script) := by
  have hstart : (m.start node).node? = some { node with behavior := none } := node?_start ht
  have hskeleton : (m.start node).script.skeleton = m.director.script.skeleton :=
    m.turn_skeleton node
  have hread : m.director.script.Readable (m.start node).script :=
    .modifyNode _ _ Node.booked_none
  have hindex : ((m.start node).script.property? (m.start node).activation.node
      "CurrentIndex").bind (·.asInt?) = some index := by
    rw [property?_start]
    exact congrArg (Option.bind · _) h.reads_index
  have hlooping : ((m.start node).script.property? (m.start node).activation.node
      "Looping").bind (·.asBool?) = some looping := by
    rw [property?_start]
    exact congrArg (Option.bind · _) h.reads_looping
  rcases Decidable.em (m.activation.input = some 1) with hreset | hinput
  · rw [press?, turned, if_pos hreset, if_pos hreset, hreset]
    exact ⟨_, rfl, rfl, switchAct_reset, h.written hskeleton hread 1, fun hne => absurd rfl hne⟩
  rw [press?, turned, if_neg hinput, if_neg hinput]
  rcases hnext : next? node.outputs.length looping index with _ | next
  · -- The index is past the last output, and the switch does not loop.
    have hpast : ¬ max index.toInt 1 ≤ node.outputs.length ∧ looping = false := by
      unfold next? at hnext
      split at hnext
      · cases hnext
      · rename_i hlt
        cases looping with
        | true => cases hnext
        | false => exact ⟨hlt, rfl⟩
    have hgauge : (m.start node).script.gauge m.activation.node = _ :=
      (hread.gauge _).trans h.gauge
    refine ⟨m.start node, rfl, rfl, ?_, hgauge, fun _ _ => hread⟩
    refine switchAct_past hstart hinput hindex (Int.not_le.1 hpast.1) hlooping ?_
    rw [hpast.2]
    exact .pure false
  · obtain ⟨hge, hle⟩ := next?_bounds hone hnext
    have hmax : next ≠ Int64.maxValue := by
      rintro rfl
      have hlargest : Int64.maxValue.toInt = 2 ^ 63 - 1 := by decide
      omega
    have hpulse : ((m.start node).pulse (next.toInt - 1).toNat).2 = _ := Turn.pulse_eq hstart
    have hpulsed : ((m.start node).pulse (next.toInt - 1).toNat).2.script.skeleton
        = m.director.script.skeleton := by
      rw [hpulse]
      exact (Script.modifyNode_skeleton _ _ fun n => n.activateOutput_skeleton _).trans hskeleton
    have hread' : m.director.script.Readable
        ((m.start node).pulse (next.toInt - 1).toNat).2.script := by
      rw [hpulse]
      exact hread.trans (.modifyNode _ _ fun n => n.booked_activateOutput _)
    have hruns := switchFrom_runs (s := ()) hstart hmax
      (show (next.toInt - 1).toNat < node.outputs.length by omega)
    refine ⟨{ ((m.start node).pulse (next.toInt - 1).toNat).2 with
      script := (((m.start node).pulse (next.toInt - 1).toNat).2.script.setProperty
        m.activation.node "CurrentIndex" (.int (next + 1))).2 }, ?_, ?_, ?_,
      h.written hpulsed hread' (next + 1), fun _ hnone => by cases hnone⟩
    · rw [hpulse]
      rfl
    · rw [hpulse]
      rfl
    unfold next? at hnext
    split at hnext
    · rename_i hwithin
      obtain rfl := Option.some.inj hnext
      exact switchAct_within hstart hinput hindex hwithin hruns
    · rename_i hlt
      cases looping with
      | false => cases hnext
      | true =>
        obtain rfl := Option.some.inj hnext
        exact switchAct_past hstart hinput hindex (Int.not_le.1 hlt) hlooping hruns

/-- A call of a switch presses it, and the switch stands at the next index then. -/
theorem presses (hosts : Hosts embed)
    (h : m.director.script.Stands embed m.activation.node properties looping cells index)
    (few : outputCount properties ≠ Int64.maxValue) (ht : m.target? = some node) :
    m.Presses (outputCount properties).toInt.toNat looping index
      ∧ m.outcome.2.script.Stands embed m.activation.node properties looping cells
        (Standard.turned (outputCount properties).toInt.toNat looping m.activation.input
          index) := by
  obtain ⟨node', hn, hshape, hb⟩ := h.holds
  obtain rfl := Option.some.inj ((target?_eq_some.1 ht).1.symm.trans hn)
  obtain ⟨hlength, hnames⟩ := Node.output_of_switch hshape
  obtain ⟨hone, hfew⟩ := outputCount_bounds few
  rw [← hlength] at hone hfew ⊢
  obtain ⟨turn', hframes, hsignalled, hruns, hgauge, hidle⟩ := runs_of_stands h ht hone hfew
  obtain ⟨hgoes, hholds⟩ := h.holds.ran hosts.switches ht hb hruns nofun
  have hread := readable_outcome ht hb hgoes
  rw [(call?_of_runs hosts.switches ht hb hruns).2.1] at hread
  have hgauge' := (hread.gauge m.activation.node).trans hgauge
  have hstands := h.turned (Script.skeleton_lasting.outcome m) hholds hgauge'
  refine ⟨⟨h.reads_index, returns_of_runs hosts.switches ht hb hruns hframes hsignalled,
    fun next hnext => ?_, hstands.reads_index, fun hinput hnone => ?_⟩, hstands⟩
  · rw [press?] at hnext
    split at hnext
    · cases hnext
    obtain ⟨hge, hle⟩ := next?_bounds hone hnext
    obtain ⟨output, houtput, hname⟩ := hnames (next.toInt - 1).toNat (by omega)
    refine ⟨node, output, ht, houtput, ?_⟩
    rw [hname, show (next.toInt - 1).toNat + 1 = next.toInt.toNat by omega]
  · exact ((hidle hinput hnone).trans hread).property?

end Moment

/-! ## One call after another -/

namespace Standard

/-- The index at which a switch stands after calls on the given inputs. -/
def standing (outputs : Nat) (looping : Bool) (index : Int64) (inputs : List (Option Nat)) :
    Int64 :=
  inputs.foldl (fun index input => turned outputs looping input index) index

/-- The output, counted from zero, that a switch pulses in a call after so many others since it was
reset. -/
def inTurn? (outputs : Nat) (looping : Bool) (before : Nat) : Option Nat :=
  if before < outputs then some before else if looping then some (before % outputs) else none

theorem standing_append (outputs : Nat) (looping : Bool) (index : Int64)
    (inputs inputs' : List (Option Nat)) : standing outputs looping index (inputs ++ inputs')
      = standing outputs looping (standing outputs looping index inputs) inputs' :=
  List.foldl_append

/-- Where a switch stands after so many calls since it was reset. -/
def place (outputs : Nat) (looping : Bool) : Nat → Nat
  | 0 => 1
  | before + 1 => if looping then before % outputs + 2 else min (before + 1) outputs + 1

/-- A looping switch stands one output further than the calls take it round, or past its last. -/
theorem place_of_looping {outputs : Nat} (hone : 1 ≤ outputs) : ∀ before : Nat,
    place outputs true before = before % outputs + 1
      ∨ place outputs true before = outputs + 1 ∧ before % outputs = 0
  | 0 => .inl (congrArg (· + 1) (Nat.zero_mod outputs).symm)
  | before + 1 => by
    have hplace : place outputs true (before + 1) = before % outputs + 2 := rfl
    have hlt := Nat.mod_lt before hone
    rw [hplace, ← Nat.mod_add_mod]
    rcases Nat.lt_or_ge (before % outputs + 1) outputs with hwithin | hround
    · exact .inl (congrArg (· + 1) (Nat.mod_eq_of_lt hwithin).symm)
    · have hlast : before % outputs + 1 = outputs := Nat.le_antisymm hlt hround
      exact .inr ⟨congrArg (· + 1) hlast, by rw [hlast, Nat.mod_self]⟩

theorem place_of_not_looping (outputs : Nat) : ∀ before : Nat,
    place outputs false before = min before outputs + 1
  | 0 => congrArg (· + 1) (Nat.zero_min outputs).symm
  | _ + 1 => rfl

/-- One call moves a switch from one place to the next. -/
theorem next?_of_place {outputs before : Nat} {looping : Bool} {index : Int64} (hone : 1 ≤ outputs)
    (few : outputs < 2 ^ 63 - 1) (h : index.toInt = place outputs looping before) :
    (next? outputs looping index).map (fun next => (next.toInt - 1).toNat)
        = inTurn? outputs looping before
      ∧ ((next? outputs looping index).elim index (· + 1)).toInt
        = place outputs looping (before + 1) := by
  have hlargest : Int64.maxValue.toInt = 2 ^ 63 - 1 := by decide
  have hfirst : (1 : Int64).toInt = 1 := rfl
  have hsucc : ∀ next : Int64, next.toInt ≤ outputs → (next + 1).toInt = next.toInt + 1 := by
    intro next hle
    refine Int64.toInt_succ fun heq => ?_
    rw [heq] at hle
    omega
  have hmax := toInt_max_one index
  cases looping with
  | true =>
    have hturn : inTurn? outputs true before = some (before % outputs) := by
      unfold inTurn?
      split
      · rename_i hlt
        rw [Nat.mod_eq_of_lt hlt]
      · rfl
    have hafter : place outputs true (before + 1) = before % outputs + 2 := rfl
    have hlt := Nat.mod_lt before hone
    rw [hturn, hafter]
    rcases place_of_looping hone before with hplace | ⟨hplace, hzero⟩ <;> rw [hplace] at h
    · have hnext : next? outputs true index = some (max index 1) := if_pos (by omega)
      rw [hnext, Option.map_some, Option.elim_some, hsucc _ (by omega)]
      exact ⟨congrArg some (by omega), by omega⟩
    · have hnext : next? outputs true index = some 1 := by
        unfold next?
        rw [if_neg (by omega)]
        rfl
      rw [hnext, hzero]
      exact ⟨rfl, rfl⟩
  | false =>
    have hafter : place outputs false (before + 1) = min (before + 1) outputs + 1 := rfl
    rw [place_of_not_looping] at h
    rw [hafter, inTurn?]
    rcases Nat.lt_or_ge before outputs with hlt | hge
    · have hnext : next? outputs false index = some (max index 1) := if_pos (by omega)
      rw [hnext, Option.map_some, Option.elim_some, hsucc _ (by omega), if_pos hlt]
      exact ⟨congrArg some (by omega), by omega⟩
    · have hnext : next? outputs false index = none := by
        unfold next?
        rw [if_neg (by omega)]
        rfl
      rw [hnext, if_neg (Nat.not_lt.2 hge)]
      refine ⟨rfl, ?_⟩
      rw [Option.elim_none]
      omega

/-- After a reset a switch pulses its outputs in turn. -/
theorem standing_of_reset {outputs : Nat} (looping : Bool) (hone : 1 ≤ outputs)
    (few : outputs < 2 ^ 63 - 1) :
    ∀ inputs : List (Option Nat), (∀ input ∈ inputs, input ≠ some 1) →
      (standing outputs looping 1 inputs).toInt = place outputs looping inputs.length := by
  intro inputs
  induction inputs using List.reverseRecOn with
  | nil => exact fun _ => rfl
  | append_singleton inputs input ih =>
    intro hinputs
    rw [List.forall_mem_append, List.forall_mem_singleton] at hinputs
    rw [standing_append, List.length_append, List.length_singleton]
    refine Eq.trans (congrArg Int64.toInt (if_neg hinputs.2)) ?_
    exact (next?_of_place hone few (ih hinputs.1)).2

end Standard

namespace Moment

/-- The call presses a switch at one index and leaves it at the other. -/
def Turns (outputs : Nat) (looping : Bool) (index : Int64) (m : Moment β) (next : Int64) : Prop :=
  m.Presses outputs looping index
    ∧ next = Standard.turned outputs looping m.activation.input index

theorem Chain.standing {outputs : Nat} {first last : Int64} {calls : List (Moment β)}
    (h : Chain (Turns outputs looping) first calls last) :
    last = standing outputs looping first (calls.map (·.activation.input)) := by
  induction h with
  | nil => rfl
  | cons step rest ih =>
    obtain ⟨-, rfl⟩ := step
    exact ih

end Moment

/-- A run of a host in which nobody but the switch writes what it goes by, with the calls of the
switch so far. Whatever else is edited, called or fails does not matter. -/
inductive Switched (id : NodeId) (start : Director β) : List (Moment β) → Director β → Prop where
  | start : Switched id start [] start
  | move {calls : List (Moment β)} {director : Director β} (run : Switched id start calls director)
      (move : Move β) (kept : (director.move move).script.gauge id = director.script.gauge id) :
      Switched id start calls (director.move move)
  | tick {calls : List (Moment β)} {director after : Director β} {fuel : Nat} {sim real : Float}
      {ending : Except Halt Report} (run : Switched id start calls director)
      (updated : director.update fuel sim real = some (ending, after))
      (kept : ∀ m ∈ director.history fuel sim real, m.activation.node ≠ id →
        m.outcome.2.script.gauge id = m.director.script.gauge id) :
      Switched id start (calls ++ Moment.callsOf id (director.history fuel sim real)) after

namespace Script.Stands

omit [Behavior β] in
theorem move {director : Director β}
    (h : director.script.Stands embed id properties looping cells index) (move : Move β)
    (kept : (director.move move).script.gauge id = director.script.gauge id) :
    (director.move move).script.Stands embed id properties looping cells index := by
  have hgauge := kept.trans h.gauge
  have hlive : (director.move move).script.liveBindings ⟨id, 0⟩ = cells :=
    (congrArg (·.2.2) hgauge :)
  have hread : (director.move move).script.property? id "CurrentIndex" = some (.int index) :=
    (congrArg Prod.fst hgauge :)
  refine ⟨h.holds.move move ?_, hgauge, fun cell hc node' hn' => ?_⟩
  · rcases hn : (director.move move).script.node? id with _ | node
    · rw [property?, hn] at hread
      cases hread
    · rw [containsNode, hn, Option.isSome_some]
  · -- The cell was bound before.
    obtain ⟨node, hn, -⟩ := isCell_iff.1 (mem_liveBindings.1 (h.live.symm ▸ hc)).2
    have hshape := (move_stays move hn hn').1
    rw [show node'.valueType = node.valueType from (congrArg NodeBuilder.valueType hshape :)]
    exact h.integers cell hc node hn

/-- Handling an activation presses the switch if it calls it, and leaves the switch where it stands
otherwise. -/
theorem outcome (hosts : Hosts embed) (few : outputCount properties ≠ Int64.maxValue) {m : Moment β}
    (h : m.director.script.Stands embed id properties looping cells index)
    (kept : m.activation.node ≠ id → m.outcome.2.script.gauge id = m.director.script.gauge id) :
    ∃ next, Moment.Chain (Moment.Turns (outputCount properties).toInt.toNat looping) index
        (Moment.callsOf id [m]) next
      ∧ m.outcome.2.script.Stands embed id properties looping cells next := by
  by_cases hid : m.activation.node = id
  · subst hid
    rcases ht : m.target? with _ | node
    · rw [Moment.callsOf_ignored ht, Moment.outcome_of_target?_none ht]
      exact ⟨index, .nil, h⟩
    · obtain ⟨hpresses, hstands⟩ := Moment.presses hosts h few ht
      obtain ⟨call, hc, -⟩ := hpresses.returns.call
      rw [Moment.callsOf_self (Moment.isInvoked_of_made hc)]
      exact ⟨_, .single ⟨hpresses, rfl⟩, hstands⟩
  · rw [Moment.callsOf_apart hid]
    exact ⟨index, .nil, h.turned (skeleton_lasting.outcome m) (h.holds.apart hid)
      ((kept hid).trans h.gauge)⟩

end Script.Stands

namespace Switched

variable {start director : Director β} {calls : List (Moment β)}

/-- Throughout the run the calls press the switch one after another. -/
theorem turns (hosts : Hosts embed) (few : outputCount properties ≠ Int64.maxValue)
    (run : Switched id start calls director)
    (stands : start.script.Stands embed id properties looping cells index) :
    ∃ last,
      Moment.Chain (Moment.Turns (outputCount properties).toInt.toNat looping) index calls last
        ∧ director.script.Stands embed id properties looping cells last := by
  induction run with
  | start => exact ⟨index, .nil, stands⟩
  | move run move kept ih =>
    obtain ⟨last, hturns, hstands⟩ := ih
    exact ⟨last, hturns, hstands.move move kept⟩
  | tick run updated kept ih =>
    obtain ⟨between, hturns, hstands⟩ := ih
    obtain ⟨last, hrest, hlast⟩ := Director.chain_update
      (P := fun index script => script.Stands embed id properties looping cells index)
      (fun m index kept h => h.outcome hosts few kept) updated kept hstands
    exact ⟨last, hturns.append hrest, hlast⟩

/-- A switch with its own index, or with one in cells of integers, that only it writes. In every
sequence of calls it pulses the output of its index and stores the next one. After a reset it pulses
its outputs in turn, once each or, when it loops, over and over; no call fails. The switch must not
have as many outputs as there are positive integers, which no memory could hold. -/
theorem presses_in_turn (hosts : Hosts embed) (few : outputCount properties ≠ Int64.maxValue)
    (run : Switched id start calls director)
    (stands : start.script.Stands embed id properties looping cells index) :
    (∀ earlier m later, calls = earlier ++ m :: later →
        m.Presses (outputCount properties).toInt.toNat looping
          (standing (outputCount properties).toInt.toNat looping index
            (earlier.map (·.activation.input))))
      ∧ director.script.Stands embed id properties looping cells
        (standing (outputCount properties).toInt.toNat looping index
          (calls.map (·.activation.input)))
      ∧ ∀ earlier reset between m later,
        calls = earlier ++ reset :: (between ++ m :: later) → reset.activation.input = some 1 →
        (∀ m ∈ between, m.activation.input ≠ some 1) → m.activation.input ≠ some 1 →
          m.Returns false
            (inTurn? (outputCount properties).toInt.toNat looping between.length).toList := by
  obtain ⟨hone, hfew⟩ := outputCount_bounds few
  obtain ⟨last, hturns, hstands⟩ := run.turns hosts few stands
  have heach : ∀ earlier m later, calls = earlier ++ m :: later →
      m.Presses (outputCount properties).toInt.toNat looping
        (standing (outputCount properties).toInt.toNat looping index
          (earlier.map (·.activation.input))) := by
    rintro earlier m later rfl
    obtain ⟨between, hearlier, hlater⟩ := hturns.split
    cases hlater with
    | cons step rest => exact hearlier.standing ▸ step.1
  refine ⟨heach, hturns.standing ▸ hstands, ?_⟩
  intro earlier reset between m later hcalls hreset hbetween hm
  have hpresses := heach (earlier ++ reset :: between) m later (by
    rw [hcalls, List.append_assoc, List.cons_append])
  rw [List.map_append, List.map_cons, standing_append, hreset] at hpresses
  have hplace := standing_of_reset looping hone hfew
    (between.map (·.activation.input)) (List.forall_mem_map.2 hbetween)
  rw [List.length_map] at hplace
  have hreturns := hpresses.returns
  rw [press?, if_neg hm] at hreturns
  rw [← (next?_of_place hone hfew hplace).1]
  exact hreturns

end Switched

end calls

namespace Director

/-- How a host comes to press a looping switch with two outputs, whose index is in a cell that holds
five, and to reset it in between. -/
def pressing : List (Move Agent) :=
  [.edit (.addNode rootGraph ((switchNode [("OutputCount", .int 2)]).map .standard)),
    .edit (.addNode rootGraph ((Standard.cell "Integer" (.int 5)).map .standard)),
    .edit (.connectValue ⟨⟨0⟩, 0⟩ ⟨1⟩), .edit (.setProperty ⟨0⟩ "Looping" (.bool true)),
    .triggerInput rootGraph ⟨0⟩ "In", .triggerInput rootGraph ⟨0⟩ "Reset",
    .triggerInput rootGraph ⟨0⟩ "In", .triggerInput rootGraph ⟨0⟩ "In",
    .triggerInput rootGraph ⟨0⟩ "In"]

/-- The director that is about to call the switch. -/
def turnstile : Director Agent := pressing.foldl move { script := .withRootName "root" }

/-- The third call after the reset starts again at the first output. -/
theorem presses_in_turn_of_turnstile : ∃ (ending : Except Halt Report) (after : Director Agent)
    (first reset second third last : Moment Agent),
    turnstile.update 9 0 0 = some (ending, after)
      ∧ turnstile.history 9 0 0 = [first, reset, second, third, last]
      ∧ first.Presses 2 true 5 ∧ last.Returns false [0]
      ∧ after.script.property? ⟨0⟩ "CurrentIndex" = some (.int 2) := by
  have hc : (turnstile.update 9 0 0).isSome = true := by decide +kernel
  have hinputs : (turnstile.history 9 0 0).map (fun m =>
      (m.activation.node, m.activation.input, m.isInvoked))
      = [(⟨0⟩, some 0, true), (⟨0⟩, some 1, true), (⟨0⟩, some 0, true), (⟨0⟩, some 0, true),
        (⟨0⟩, some 0, true)] := by decide +kernel
  have htype : ((turnstile.script.node? ⟨1⟩).bind (·.valueType)) = some .int := by decide +kernel
  have stands : turnstile.script.Stands Agent.standard ⟨0⟩ [("OutputCount", .int 2)] true [⟨1⟩]
      5 := by
    refine ⟨⟨_, rfl, rfl, rfl⟩, rfl, fun cell hc node hn => ?_⟩
    rw [List.mem_singleton.1 hc] at hn
    rwa [hn, Option.bind_some] at htype
  obtain ⟨⟨ending, after⟩, h⟩ := Option.isSome_iff_exists.1 hc
  rcases hhistory : turnstile.history 9 0 0 with _ | ⟨first, _ | ⟨reset, _ | ⟨second, _ |
    ⟨third, _ | ⟨last, _ | ⟨more, rest⟩⟩⟩⟩⟩⟩ <;> rw [hhistory] at hinputs <;>
    simp only [List.map_cons, List.map_nil, List.cons.injEq, Prod.mk.injEq, reduceCtorEq, and_false,
      and_true] at hinputs
  obtain ⟨⟨h₁, hi₁, hv₁⟩, ⟨h₂, hi₂, hv₂⟩, ⟨h₃, hi₃, hv₃⟩, ⟨h₄, hi₄, hv₄⟩, h₅, hi₅, hv₅⟩ := hinputs
  have begin : Switched ⟨0⟩ turnstile [] turnstile := .start
  have run := begin.tick h (by
    rw [hhistory]
    simp [h₁, h₂, h₃, h₄, h₅])
  have hcalls : Moment.callsOf ⟨0⟩ (turnstile.history 9 0 0)
      = [first, reset, second, third, last] := by
    simp [hhistory, Moment.callsOf, h₁, h₂, h₃, h₄, h₅, hv₁, hv₂, hv₃, hv₄, hv₅]
  rw [hcalls] at run
  have hcount : (outputCount [("OutputCount", .int 2)]).toInt.toNat = 2 := by decide
  have hstanding : standing 2 true 5 [some 0, some 1, some 0, some 0, some 0] = 2 := by decide
  obtain ⟨heach, hstands, hturn⟩ := run.presses_in_turn Agent.hosts (by decide) stands
  rw [hcount] at heach hstands hturn
  have hreturns := hturn [first] reset [second, third] last [] rfl hi₂ (by simp [hi₃, hi₄])
    (by simp [hi₅])
  have hfirst : (inTurn? 2 true [second, third].length).toList = [0] := by simp [inTurn?]
  rw [hfirst] at hreturns
  have hindex := hstands.reads_index
  simp only [List.nil_append, List.map_cons, List.map_nil, hi₁, hi₂, hi₃, hi₄, hi₅,
    hstanding] at hindex
  exact ⟨ending, after, first, reset, second, third, last, h, rfl,
    heach [] first [reset, second, third, last] rfl, hreturns, hindex⟩

end Director

end FlowScript
