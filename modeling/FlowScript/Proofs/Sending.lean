import FlowScript.Proofs.Delivery
import FlowScript.Proofs.Descent
import FlowScript.Proofs.Messages
import FlowScript.Proofs.Staying

/-!
# Nodes that send messages

Every cell has a value (`Script.Supplied`), so every slot of a value link can be read
(`Supplied.exists_values`), and the parameters have different names (`paramName_injective`), so no
slot is lost and none is written over another (`addParams_runs`). A call of a sender that finds its
name therefore hands over one message with all the slots (`Moment.Dispatches`); without a name it
fails and hands over nothing (`Moment.sends_cases`).
-/

namespace FlowScript

variable {α γ β σ : Type}

/-! ## Cells have values -/

theorem Keyed.isSome_insert {κ α : Type} [DecidableEq κ] {m : Keyed κ α} {k : κ}
    (h : (get? m k).isSome = true) (key : κ) (value : α) :
    (get? (insert m key value) k).isSome = true := by
  rw [get?_insert]
  split
  · rfl
  · exact h

/-- A node that is a cell has a value. -/
def Node.Supplied (node : Node β) : Prop :=
  node.isValueNode = true → (Keyed.get? node.properties cellName).isSome = true

theorem NodeBuilder.Made.supplied {builder : NodeBuilder β} (h : builder.Made)
    (hv : builder.kind = .value) : (Keyed.get? builder.properties cellName).isSome = true := by
  induction h with
  | action type behavior | event type behavior => cases hv
  | value type initial behavior => rfl
  | input name made ih | output name made ih | link link made ih => exact ih hv
  | property name value made ih => exact Keyed.isSome_insert (ih hv) name value
  | override h made ih =>
    unfold NodeBuilder.override at h
    split at h <;> split at h <;> cases h
    · exact Keyed.isSome_insert (ih hv) _ _
    · exact ih hv
    · exact Keyed.isSome_insert (ih hv) _ _

namespace Node.Supplied

variable {node node' : Node β}

theorem setValue (h : node.Supplied) (value : Property) : (node.setValue value).2.Supplied := by
  unfold Node.setValue
  split
  · exact fun hv => Keyed.isSome_insert (h hv) _ _
  · exact h

theorem change (hc : node.Change node') (h : node.Supplied) : node'.Supplied := by
  cases hc with
  | linked same =>
    have hkind : node'.cleared.kind = node.cleared.kind := by rw [same]
    have hproperties : node'.cleared.properties = node.cleared.properties := by rw [same]
    simp only [cleared] at hkind hproperties
    rw [Supplied, isValueNode, hkind, hproperties]
    exact h
  | default index value => exact h
  | cell value => exact h.setValue value
  | written name value =>
    unfold setLocalProperty
    split
    · exact h.setValue value
    split
    · exact h
    · exact fun hv => Keyed.isSome_insert (h hv) name value
  | booked booked =>
    obtain ⟨behavior, outputs, rfl, -⟩ := booked
    exact h

theorem changes (hc : node.Changes node') (h : node.Supplied) : node'.Supplied := by
  induction hc with
  | refl => exact h
  | tail _ hlast ih => exact ih.change hlast

end Node.Supplied

namespace Script

/-- Every cell has a value. -/
def Supplied (script : Script β) : Prop := ∀ id node, script.node? id = some node → node.Supplied

theorem Supplied.changes {script after : Script β} (h : script.Supplied)
    (hc : script.Changes after) : after.Supplied := by
  intro id node' hn'
  obtain ⟨node, hn, hchanges⟩ := hc id node' hn'
  exact (h id node hn).changes hchanges

theorem Supplied.held? {script : Script β} (h : script.Supplied) {cell : NodeId}
    (hc : script.isCell cell = true) : (script.held? cell).isSome = true := by
  obtain ⟨node, hn, hv⟩ := isCell_iff.1 hc
  rw [Script.held?, hn, Option.bind_some, Node.value?, if_pos hv]
  exact h cell node hn hv

theorem Supplied.edit {script : Script β} (h : script.Supplied) (change : Edit β)
    (places : change.Places NodeBuilder.Made) : (script.edit change).Supplied := by
  rcases script.changes_edit change with hc | ⟨graph, builder, added, rfl, hadd, heq⟩
  · exact h.changes hc
  · rw [heq]
    refine forall_addNode hadd h fun _ hv => ?_
    exact places.supplied (beq_iff_eq.1 hv)

theorem Reachable.supplied [Behavior β] {script : Script β}
    (h : script.Reachable NodeBuilder.Made) : script.Supplied :=
  h.induction (fun _ _ _ hn => nomatch hn) (fun _ change places hs => hs.edit change places)
    fun _ _ _ _ _ _ hu hs => hs.changes (changes_lasting.update hu)

end Script

/-! ## What an act sends -/

namespace Act

/-- How an act goes in a turn, from a private state, and what it sends. -/
structure Mails (act : Act σ α) (s : σ) (turn : Turn β) (ended : Except Stop α) (s' : σ)
    (turn' : Turn β) (pulses : List Nat) (messages : List Message) : Prop
    extends act.Runs s turn ended s' turn' pulses where
  sent : (act.run.run s).sent turn = messages

namespace Mails

variable {s s' s'' : σ} {turn turn' turn'' : Turn β} {pulses pulses' : List Nat}
  {messages messages' : List Message}

theorem bind {act : Act σ α} {f : α → Act σ γ} {a : α} {ended : Except Stop γ}
    (h : act.Mails s turn (.ok a) s' turn' pulses messages)
    (hf : (f a).Mails s' turn' ended s'' turn'' pulses' messages') :
    (act >>= f).Mails s turn ended s'' turn'' (pulses ++ pulses') (messages ++ messages') := by
  refine ⟨h.toRuns.bind hf.toRuns, ?_⟩
  have hrun : Program.run (act.run.run s) turn = ((.ok a, s'), turn') := h.result
  refine (Program.sent_bind (act.run.run s) _ turn).trans ?_
  rw [hrun, h.sent]
  exact congrArg (messages ++ ·) hf.sent

theorem stop {act : Act σ α} {f : α → Act σ γ} {stop : Stop}
    (h : act.Mails s turn (.error stop) s' turn' pulses messages) :
    (act >>= f).Mails s turn (.error stop) s' turn' pulses messages := by
  refine ⟨h.toRuns.stop, ?_⟩
  have hrun : Program.run (act.run.run s) turn = ((.error stop, s'), turn') := h.result
  refine (Program.sent_bind (act.run.run s) _ turn).trans ?_
  rw [hrun, h.sent]
  exact List.append_nil _

theorem quiet {act : Act σ α} {ended : Except Stop α}
    (h : act.Runs s turn ended s' turn' pulses) (asks : act.Asks fun r => r.sent = []) :
    act.Mails s turn ended s' turn' pulses [] :=
  ⟨h, (asks s).sent_eq_nil turn⟩

theorem send (message : Message) : (Act.ask (.send message) : Act σ Unit).Mails s turn (.ok ()) s
    { turn with bridge := turn.bridge.send message } [] [message] :=
  ⟨.ask (.send message), rfl⟩

end Mails

end Act

theorem Request.sent_of_routine (r : Request) (h : r.Routine) : r.sent = [] := by
  cases r with
  | send message => exact h.elim
  | _ => rfl

/-! ## Sending the slots -/

namespace Standard

theorem paramName_injective : Function.Injective paramName := by
  have hlonger : ∀ n : Nat, "Param" ≠ "Param" ++ (n + 1).repr := by
    intro n heq
    have hempty : "Param" ++ "" = "Param" ++ (n + 1).repr := String.append_empty.trans heq
    exact Nat.repr_ne_empty ((String.append_right_inj "Param").1 hempty).symm
  intro i j h
  cases i with
  | zero =>
    cases j with
    | zero => rfl
    | succ j => exact absurd h (hlonger j)
  | succ i =>
    cases j with
    | zero => exact absurd h.symm (hlonger i)
    | succ j => exact congrArg _ (Nat.succ.inj (repr_inj.1 ((String.append_right_inj "Param").1 h)))

/-- Parameters for the first slots. -/
def params (values : Nat → Property) (slots : Nat) : PropertySet :=
  (List.range slots).map fun slot => (paramName slot, values slot)

theorem keys_params (values : Nat → Property) (slots : Nat) :
    Keyed.keys (params values slots) = (List.range slots).map paramName := by
  rw [params, Keyed.keys, List.map_map]
  rfl

theorem getElem?_params (values : Nat → Property) {slot slots : Nat} (h : slot < slots) :
    (params values slots)[slot]? = some (paramName slot, values slot) := by
  rw [params, List.getElem?_map, List.getElem?_range h, Option.map_some]

theorem insert_params (values : Nat → Property) (slots : Nat) :
    Keyed.insert (params values slots) (paramName slots) (values slots) =
      params values (slots + 1) := by
  have hnew : paramName slots ∉ Keyed.keys (params values slots) := by
    rw [keys_params, List.mem_map]
    rintro ⟨slot, hslot, heq⟩
    rw [paramName_injective heq] at hslot
    exact Nat.lt_irrefl _ (List.mem_range.1 hslot)
  rw [Keyed.insert_of_not_mem hnew, params, params, List.range_succ, List.map_append,
    List.map_singleton]

variable {s : σ} {turn : Turn β} {ref : ValueLinkRef} {values : Nat → Property}

/-- Every slot that can be read becomes a parameter. -/
theorem addParams_runs (link : turn.link? "Param" = some ref) (message : Message)
    (blank : message.params = []) : ∀ slots : Nat,
      (∀ slot < slots, turn.script.linkValue? ref slot = some (values slot)) →
      (addParams slots message : Act σ Message).Runs s turn
        (.ok { message with params := params values slots }) s turn []
  | 0, _ => by
    have hsame : { message with params := params values 0 } = message := by
      rw [show params values 0 = message.params from blank.symm]
    rw [hsame]
    exact .pure message
  | slots + 1, readable => by
    have hread : (turn.answer (.slot "Param" slots)).1 = some (values slots) := by
      rw [Turn.answer, link, Option.bind_some]
      exact readable slots (Nat.lt_succ_self slots)
    refine .bind (addParams_runs link message blank slots fun slot h =>
      readable slot (Nat.lt_succ_of_lt h)) (.bind (.ask (.slot "Param" slots)) ?_)
    rw [hread]
    have hsame : ({ message with params := params values slots } : Message).withParam
        (paramName slots) (values slots) =
          { message with params := params values (slots + 1) } := by
      rw [Message.withParam, insert_params]
    rw [← hsame]
    exact .pure _

/-- The message with all the slots, sent by a node of this shape. -/
theorem sendMessageAct_mails {node : Node β} {name : String} {slots : Nat}
    (hn : turn.node? = some node)
    (shape : node.shape = sendMessageNode.shape)
    (named : (turn.script.property? turn.activation.node "MessageName").bind (·.asString?) =
      some name)
    (counted : turn.script.slotCount ⟨turn.activation.node, 0⟩ = slots)
    (readable : ∀ slot < slots,
      turn.script.linkValue? ⟨turn.activation.node, 0⟩ slot = some (values slot)) :
    ∃ turn', (sendMessageAct : Act σ Bool).Mails s turn (.ok false) s turn' [0]
      [{ name := name
         params := params values slots
         graph := turn.graph
         node := turn.activation.node
         tick := turn.clock.tick }] := by
  have routine := Request.sent_of_routine
  have hlink : turn.link? "Param" = some ⟨turn.activation.node, 0⟩ := by
    rw [Turn.link?, hn, Option.bind_some, Node.linkIndex?_of_shape shape]
    rfl
  have hcount : (turn.answer (.slotCount "Param")).1 = slots := by
    rw [Turn.answer, hlink]
    exact counted
  have hout : node.outputIndex? "Out" = some 0 := Node.outputIndex?_of_shape shape "Out"
  have hinside : 0 < node.outputs.length := by
    have hlength := congrArg (fun described => described.outputs.length) shape
    simp only [Node.shape, NodeBuilder.shape, List.length_map] at hlength
    rw [hlength]
    exact Nat.one_pos
  let message : Message :=
    { name := name, graph := turn.graph, node := turn.activation.node, tick := turn.clock.tick }
  have hread : (Act.getString "MessageName" : Act σ String).Mails s turn (.ok name) s turn [] [] :=
    .quiet (.read named) (Act.read_asks routine _ _ _)
  have hmessage : (Act.message name : Act σ Message).Mails s turn (.ok message) s turn [] [] :=
    .quiet (.bind (.ask .graph) (.bind (.ask .node) (.bind (.ask .tick) (.pure message))))
      (.bind (.ask rfl) fun _ => .bind (.ask rfl) fun _ => .bind (.ask rfl) fun _ => .pure)
  have hslots : (Act.ask (.slotCount "Param") : Act σ Nat).Mails s turn
      (.ok (turn.answer (.slotCount "Param")).1) s turn [] [] :=
    .quiet (.ask (.slotCount "Param")) (.ask rfl)
  have hfill := Act.Mails.quiet (addParams_runs (s := s) hlink message rfl _ readable)
    (addParams_asks routine message _)
  rw [hcount] at hslots
  have hfire (bridge : Bridge) : (Act.fire "Out" : Act σ Unit).Mails s
      { turn with bridge := bridge } (.ok ()) s
      (({ turn with bridge := bridge } : Turn β).pulse 0).2 [0] [] :=
    .quiet (.fire hn hout hinside) (Act.fire_asks routine "Out")
  have hdone (turn' : Turn β) : (pure false : Act σ Bool).Mails s turn' (.ok false) s turn' [] [] :=
    .quiet (.pure false) .pure
  exact ⟨_, hread.bind (hmessage.bind (hslots.bind (hfill.bind ((Act.Mails.send _).bind
    ((hfire _).bind (hdone _))))))⟩

/-- Without a name nothing is sent. -/
theorem sendMessageAct_unnamed
    (unnamed : (turn.script.property? turn.activation.node "MessageName").bind (·.asString?) =
      none) :
    ∃ error, (sendMessageAct : Act σ Bool).Mails s turn (.error (.failed error)) s turn [] [] := by
  obtain ⟨error, hread⟩ : ∃ error, (Act.getString "MessageName" : Act σ String).Runs s turn
    (.error (.failed error)) s turn [] := Act.Runs.unread unnamed
  exact ⟨error, .stop (.quiet hread (Act.read_asks Request.sent_of_routine _ _ _))⟩

end Standard

/-- Every slot of a link has a value. -/
theorem Script.Supplied.exists_values {script : Script β} (hs : script.Supplied)
    {ref : ValueLinkRef} {link : ValueLink} (hl : script.link? ref = some link) :
    ∃ values : Nat → Property, ∀ slot < max 1 (script.liveBindings ref).length,
      script.linkValue? ref slot = some (values slot) := by
  refine ⟨fun slot => (script.linkValue? ref slot).getD link.default, fun slot hslot => ?_⟩
  obtain ⟨value, hvalue⟩ : ∃ value, script.linkValue? ref slot = some value := by
    rcases hbound : script.liveBindings ref with _ | ⟨first, rest⟩
    · rw [hbound] at hslot
      obtain rfl : slot = 0 := Nat.lt_one_iff.1 hslot
      exact ⟨_, linkValue?_unbound hl hbound⟩
    · have hlt : slot < (script.liveBindings ref).length := by
        rw [hbound, List.length_cons] at hslot ⊢
        omega
      rw [linkValue?_held (List.getElem?_eq_getElem hlt)]
      exact Option.isSome_iff_exists.1 (hs.held? (mem_liveBindings.1 (List.getElem_mem hlt)).2)
  simp only [hvalue, Option.getD_some]

/-! ## Calls of a sender -/

namespace Moment

variable [Behavior β] {embed : Standard → β} {m : Moment β} {node : Node β}

/-- The call hands over one message. It holds the value of each cell that is bound to the node, or
the default if none is, and it is stamped with the node, its graph and the tick. -/
structure Dispatches (m : Moment β) (message : Message) : Prop where
  sent : m.sent = [message]
  name : m.director.script.property? m.activation.node "MessageName" = some (.string message.name)
  keys : Keyed.keys message.params =
    (List.range (max 1 (m.director.script.liveBindings ⟨m.activation.node, 0⟩).length)).map
      Standard.paramName
  distinct : (Keyed.keys message.params).Nodup
  bound (slot : Nat) (cell : NodeId) :
    (m.director.script.liveBindings ⟨m.activation.node, 0⟩)[slot]? = some cell →
      ∃ value, m.director.script.held? cell = some value
        ∧ message.params[slot]? = some (Standard.paramName slot, value)
  unbound : m.director.script.liveBindings ⟨m.activation.node, 0⟩ = [] →
    ∃ link, m.director.script.link? ⟨m.activation.node, 0⟩ = some link
      ∧ message.params = [("Param", link.default)]
  graph : m.target?.map (·.graph) = some message.graph
  node : message.node = m.activation.node
  tick : message.tick = m.director.clock.tick

theorem sent_of_mails {act : Option Nat → Bool → Act σ Bool} {state : σ → β} {s s' : σ}
    {ended : Verdict} {turn' : Turn β} {pulses : List Nat} {messages : List Message}
    (performs : Performs act state) (ht : m.target? = some node)
    (hb : node.behavior = some (state s))
    (h : (act m.activation.input m.activation.first).Mails s (m.start node) ended s' turn' pulses
      messages) : m.sent = messages := by
  rw [sent_of_behavior ht hb, performs, Program.sent_map]
  exact h.sent

omit [Behavior β] in
theorem link?_params (ht : m.target? = some node)
    (shape : node.shape = Standard.sendMessageNode.shape) :
    ∃ link, m.director.script.link? ⟨m.activation.node, 0⟩ = some link := by
  have hlength := congrArg (fun described => described.links.length) shape
  simp only [Node.shape, NodeBuilder.shape, List.length_map] at hlength
  have hone : 0 < node.links.length := by
    rw [hlength]
    exact Nat.one_pos
  refine ⟨node.links[0], ?_⟩
  rw [Script.link?, (target?_eq_some.1 ht).1, Option.bind_some]
  exact List.getElem?_eq_getElem hone

/-- A sender that finds its name sends a message that is as it has to be. -/
theorem dispatched (ht : m.target? = some node)
    (shape : node.shape = Standard.sendMessageNode.shape) (hc : m.director.script.Supplied)
    {name : String}
    (named : m.director.script.property? m.activation.node "MessageName" = some (.string name)) :
    ∃ message turn', (Standard.sendMessageAct : Act Unit Bool).Mails () (m.start node) (.ok false)
        () turn' [0] [message]
      ∧ (m.sent = [message] → m.Dispatches message) := by
  have hsame : m.director.script.Readable (m.start node).script :=
    .modifyNode _ _ Node.booked_none
  obtain ⟨link, hlink⟩ := link?_params ht shape
  obtain ⟨values, hvalues⟩ := hc.exists_values hlink
  have hcount : (m.start node).script.slotCount ⟨m.activation.node, 0⟩ =
      max 1 (m.director.script.liveBindings ⟨m.activation.node, 0⟩).length := by
    rw [Script.slotCount, hsame.liveBindings, Nat.max_comm]
  have hstart : ((m.start node).script.property? (m.start node).activation.node
      "MessageName").bind (·.asString?) = some name := by
    rw [m.property?_start, named]
    rfl
  obtain ⟨turn', hmails⟩ := Standard.sendMessageAct_mails (s := ()) (node?_start ht) shape hstart
    hcount fun slot hslot => (congrFun (congrFun hsame.linkValue? _) slot).trans
      (hvalues slot hslot)
  refine ⟨_, turn', hmails, fun hsent => ⟨hsent, named, Standard.keys_params _ _, ?_,
    fun slot cell hcell => ?_, fun hbound => ⟨link, hlink, ?_⟩,
    congrArg (Option.map (·.graph)) ht, rfl, rfl⟩⟩
  case refine_1 =>
    dsimp only
    rw [Standard.keys_params]
    exact List.Nodup.map Standard.paramName_injective List.nodup_range
  case refine_2 =>
    have hslot : slot < max 1 (m.director.script.liveBindings ⟨m.activation.node, 0⟩).length :=
      Nat.lt_of_lt_of_le (List.getElem?_eq_some_iff.1 hcell).1 (Nat.le_max_right _ _)
    exact ⟨values slot, (Script.linkValue?_held hcell).symm.trans (hvalues slot hslot),
      Standard.getElem?_params values hslot⟩
  case refine_3 =>
    have hfirst := hvalues 0 (Nat.lt_of_lt_of_le Nat.one_pos (Nat.le_max_left _ _))
    rw [Script.linkValue?_unbound hlink hbound] at hfirst
    rw [hbound, Option.some.inj hfirst]
    rfl

/-- A sender that finds its name dispatches a message, and any other fails and sends nothing. -/
theorem sends_cases (hosts : Hosts embed) (ht : m.target? = some node)
    (shape : node.shape = Standard.sendMessageNode.shape)
    (hb : node.behavior = some (embed .sendMessage)) (hc : m.director.script.Supplied) :
    (∃ message call, m.Dispatches message ∧ m.call? = some call ∧ call.verdict = .ok false)
      ∨ ∃ call error, m.sent = [] ∧ m.call? = some call
        ∧ call.verdict = .error (.failed error) := by
  have performs : Performs (fun _ _ => (Standard.sendMessageAct : Act Unit Bool))
      fun _ : Unit => embed .sendMessage := hosts.performs fun _ _ _ => rfl
  have hname : (m.start node).script.property? (m.start node).activation.node "MessageName" =
      m.director.script.property? m.activation.node "MessageName" := m.property?_start _
  rcases hnamed : (m.director.script.property? m.activation.node "MessageName").bind
    (·.asString?) with _ | name <;> rw [← hname] at hnamed
  · obtain ⟨error, hmails⟩ := Standard.sendMessageAct_unnamed (s := ()) hnamed
    exact .inr ⟨_, error, sent_of_mails performs ht hb hmails,
      (call?_of_runs performs ht hb hmails.toRuns).1, rfl⟩
  · obtain ⟨value, hvalue, hstring⟩ := Option.bind_eq_some_iff.1 hnamed
    obtain rfl : value = .string name := by
      cases value <;> cases hstring
      rfl
    obtain ⟨message, turn', hmails, hsent⟩ := dispatched ht shape hc (hname ▸ hvalue)
    exact .inl ⟨_, _, hsent (sent_of_mails performs ht hb hmails),
      (call?_of_runs performs ht hb hmails.toRuns).1, rfl⟩

end Moment

end FlowScript
