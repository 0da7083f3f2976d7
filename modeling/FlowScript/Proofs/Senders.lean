import FlowScript.Proofs.Parts
import FlowScript.Proofs.Sending

/-!
# Senders in a run

Among the standard nodes those of the type of senders, and no others, have the behavior that sends
(`Hosts.mute`). What a call of a sender needs (`Script.Mailing`) holds of every script that a host
can come by and is kept by every call. So over a whole run a log gets one message for each call of a
sender that succeeds, in the order of the calls (`Director.Chronicle.dispatches`).
-/

namespace FlowScript

variable {β : Type}

/-! ## Behaviors that send nothing -/

/-- Behaviors of this kind send nothing, and stay of it. -/
structure Mute [Behavior β] (kind : β → Prop) : Prop where
  asks : ∀ behavior, kind behavior → ∀ input first,
    (Behavior.react behavior input first).Asks fun r => r.sent = []
  stays : Stays kind

namespace Standard

theorem blank_eq_sendMessage {behavior : Standard} :
    behavior.blank = sendMessage ↔ behavior = sendMessage := by
  cases behavior <;> simp [blank]

theorem react_eq_sendMessage {behavior : Standard} {input : Option Nat} {first : Bool}
    {turn : Turn β} :
    ((behavior.react input first).run turn).1.2 = sendMessage ↔ behavior = sendMessage := by
  rw [← blank_eq_sendMessage, react_blank, blank_eq_sendMessage]

end Standard

/-- The standard behaviors but one send nothing. -/
theorem Hosts.mute [Behavior β] {embed : Standard → β} (hosts : Hosts embed) :
    Mute fun behavior => ∃ other ≠ Standard.sendMessage, behavior = embed other where
  asks := by
    rintro _ ⟨other, hother, rfl⟩ input first
    rw [hosts.reacts]
    refine .bind ((other.react_mayAsk input first).mono fun r hr => ?_) fun _ => trivial
    cases r with
    | send message => exact absurd hr hother
    | _ => rfl
  stays := by
    rintro _ ⟨other, hother, rfl⟩ input first turn
    rw [hosts.reacts, Program.run_map]
    exact ⟨_, Standard.react_eq_sendMessage.not.2 hother, rfl⟩

theorem Moment.sent_of_mute [Behavior β] {kind : β → Prop} (mute : Mute kind) {m : Moment β}
    {node : Node β} {behavior : β} (ht : m.target? = some node) (hb : node.behavior = some behavior)
    (hk : kind behavior) : m.sent = [] := by
  rw [sent_of_behavior ht hb]
  exact (mute.asks behavior hk _ _).sent_eq_nil _

/-! ## Senders of a host -/

namespace Standard

/-- The node type of senders is the only one whose behavior sends. -/
theorem sender_of_mem_catalog : ∀ e ∈ catalog, ∀ properties, e.2 properties = sendMessageNode
    ∨ e.1 ≠ sendMessageType ∧ (e.2 properties).behavior ≠ sendMessage := by
  simp only [catalog, List.forall_mem_cons]
  refine ⟨fun _ => ?_, fun _ => ?_, fun _ => ?_, fun _ => ?_, fun _ => ?_, fun _ => ?_, fun _ => ?_,
    fun _ => ?_, fun _ => ?_, fun _ => ?_, fun _ => .inl rfl, fun _ => ?_, fun _ => ?_, fun _ => ?_,
    fun _ => ?_, fun _ => ?_, List.forall_mem_nil _⟩
  all_goals exact .inr ⟨by decide, fun h => by cases h⟩

/-- What the registry of the standard nodes describes, in a host. -/
def InstantiatedIn (embed : Standard → β) (builder : NodeBuilder β) : Prop :=
  ∃ described, Instantiated described ∧ builder = described.map embed

/-- A node of the type of senders has their behavior, and one of another type has one of a kind. -/
def Cast (embed : Standard → β) (kind : β → Prop) (type : TypeId) (behavior : β) : Prop :=
  (type = sendMessageType → behavior = embed .sendMessage)
    ∧ (type ≠ sendMessageType → kind behavior)

namespace InstantiatedIn

variable {embed : Standard → β} {builder : NodeBuilder β}

theorem sender_or (h : InstantiatedIn embed builder) :
    (builder.shape = sendMessageNode.shape ∧ builder.behavior = embed .sendMessage)
      ∨ builder.type ≠ sendMessageType ∧ ∃ other ≠ sendMessage, builder.behavior = embed other := by
  obtain ⟨described, ⟨type, properties, hc⟩, rfl⟩ := h
  obtain ⟨entry, he, authored, hshape, hblank⟩ := genuine_of_create hc ⟨0⟩ rootGraph
  have hbehavior := hblank described.behavior rfl
  have htype : described.type = entry.1 :=
    (congrArg NodeBuilder.type hshape :).trans (type_of_mem_catalog entry he authored)
  rcases sender_of_mem_catalog entry he authored with hsender | ⟨hne, hother⟩
  · rw [hsender] at hshape hbehavior
    exact .inl ⟨hshape, congrArg embed (blank_eq_sendMessage.1 hbehavior)⟩
  · refine .inr ⟨fun h => hne (htype.symm.trans h), described.behavior, fun h => hother ?_, rfl⟩
    rw [← hbehavior]
    exact blank_eq_sendMessage.2 h

theorem sender (h : InstantiatedIn embed builder) (ht : builder.type = sendMessageType) :
    builder.shape = sendMessageNode.shape ∧ builder.behavior = embed .sendMessage :=
  h.sender_or.resolve_right fun hother => hother.1 ht

/-- A standard node of another type has another behavior. -/
theorem other (h : InstantiatedIn embed builder) (ht : builder.type ≠ sendMessageType) :
    ∃ other ≠ sendMessage, builder.behavior = embed other :=
  (h.sender_or.resolve_left fun hsender =>
    ht (congrArg NodeBuilder.type hsender.1 :)).2

end InstantiatedIn

end Standard

variable [Behavior β] {embed : Standard → β} {kind : β → Prop} {placed : NodeBuilder β → Prop}

theorem Hosts.cast_stays (hosts : Hosts embed) (stays : Stays kind) (type : TypeId) :
    Stays (Standard.Cast embed kind type) := by
  refine fun behavior h input first turn =>
    ⟨fun ht => ?_, fun ht => stays behavior (h.2 ht) input first turn⟩
  rw [h.1 ht, hosts.reacts, Program.run_map]
  exact congrArg embed (Standard.react_eq_sendMessage.2 rfl)

/-- All that a call of a sender needs of a script. -/
structure Script.Mailing (embed : Standard → β) (kind : β → Prop) (script : Script β) : Prop where
  supplied : script.Supplied
  shaped : ∀ member ∈ script.members, member.shape.type = Standard.sendMessageType →
    member.shape = Standard.sendMessageNode.shape
  plays : script.Plays (Standard.Cast embed kind)

namespace Script.Mailing

theorem of_reachable {script : Script β} (hosts : Hosts embed) (stays : Stays kind)
    (made : ∀ builder, placed builder → builder.Made)
    (senders : ∀ builder, placed builder → builder.type = Standard.sendMessageType →
      Standard.InstantiatedIn embed builder)
    (others : ∀ builder, placed builder → builder.type ≠ Standard.sendMessageType →
      kind builder.behavior) (h : script.Reachable placed) : script.Mailing embed kind where
  supplied := (h.mono made).supplied
  shaped := h.forall_members (P := fun shape => shape.type = Standard.sendMessageType →
    shape = Standard.sendMessageNode.shape) fun builder hb ht =>
      ((senders builder hb ht).sender ht).1
  plays := h.plays (hosts.cast_stays stays) fun builder hb =>
    ⟨fun ht => ((senders builder hb ht).sender ht).2, others builder hb⟩

theorem outcome (hosts : Hosts embed) (stays : Stays kind) (m : Moment β)
    (h : m.director.script.Mailing embed kind) : m.outcome.2.script.Mailing embed kind where
  supplied := h.supplied.changes (changes_lasting.outcome m)
  shaped := by
    rw [members_of_skeleton (skeleton_lasting.outcome m)]
    exact h.shaped
  plays := Plays.outcome (hosts.cast_stays stays) m h.plays

end Script.Mailing

/-! ## Calls of senders -/

namespace Moment

/-- The activation calls a node of the type of senders, and the call succeeds. -/
def delivers (m : Moment β) : Bool :=
  m.target?.any (·.type = Standard.sendMessageType) && m.call?.any (·.verdict.isOk)

variable {m : Moment β} {node : Node β}

theorem delivers_of_call {call : Call β} (ht : m.target? = some node)
    (htype : node.type = Standard.sendMessageType) (hcall : m.call? = some call) :
    m.delivers = call.verdict.isOk := by
  rw [delivers, ht, Option.any_some, decide_eq_true htype, hcall, Option.any_some, Bool.true_and]

/-- A call of a sender hands over a message or fails. -/
theorem mails_cases (hosts : Hosts embed) (hm : m.director.script.Mailing embed kind)
    (ht : m.target? = some node) (htype : node.type = Standard.sendMessageType) {call : Call β}
    (hcall : m.call? = some call) :
    (∃ message, m.Dispatches message ∧ call.verdict = .ok false)
      ∨ m.sent = [] ∧ ∃ error, call.verdict = .error (.failed error) := by
  obtain ⟨found, behavior, hfound, hb, -⟩ := call?_eq_some hcall
  obtain rfl := Option.some.inj (ht.symm.trans hfound)
  have hn := (target?_eq_some.1 ht).1
  obtain rfl := (hm.plays _ node hn behavior hb).1 htype
  have shape := hm.shaped node.member (Script.node?_member hn) htype
  rcases sends_cases hosts ht shape hb hm.supplied with
    ⟨message, made, hmessage, hmade, hok⟩ | ⟨made, error, hsent, hmade, herror⟩ <;>
    obtain rfl := Option.some.inj (hcall.symm.trans hmade)
  · exact .inl ⟨message, hmessage, hok⟩
  · exact .inr ⟨hsent, error, herror⟩

/-- When no other node sends, a moment hands over one message if it is a call of a sender that
succeeds, and nothing otherwise. -/
theorem delivers_cases (hosts : Hosts embed) (mute : Mute kind)
    (hm : m.director.script.Mailing embed kind) :
    (m.delivers = true ∧ ∃ message, m.Dispatches message) ∨ m.delivers = false ∧ m.sent = [] := by
  rcases ht : m.target? with _ | node
  · exact .inr ⟨by rw [delivers, ht]; rfl, sent_of_target?_none ht⟩
  rcases hb : node.behavior with _ | behavior
  · have hnone : m.call? = none := by rw [call?, ht, Option.bind_some, hb, Option.map_none]
    refine .inr ⟨by rw [delivers, hnone, Option.any_none, Bool.and_false], ?_⟩
    rw [sent, ht, Option.bind_some, hb]
    rfl
  by_cases htype : node.type = Standard.sendMessageType
  · have hcall := call?_of_behavior ht hb
    have hdelivers := delivers_of_call ht htype hcall
    rcases mails_cases hosts hm ht htype hcall with ⟨message, hmessage, hok⟩ | ⟨hsent, error, hfail⟩
    · exact .inl ⟨by rw [hdelivers, hok]; rfl, message, hmessage⟩
    · exact .inr ⟨by rw [hdelivers, hfail]; rfl, hsent⟩
  · have hkind := (hm.plays _ node (target?_eq_some.1 ht).1 behavior hb).2 htype
    refine .inr ⟨?_, sent_of_mute mute ht hb hkind⟩
    rw [delivers, ht, Option.any_some, decide_eq_false htype, Bool.false_and]

/-- The messages of moments are those of the calls of senders that succeed, one for each. -/
theorem forall₂_dispatches {history : List (Moment β)}
    (each : ∀ m ∈ history, (m.delivers = true ∧ ∃ message, m.Dispatches message)
      ∨ m.delivers = false ∧ m.sent = []) :
    List.Forall₂ Dispatches (history.filter delivers) (history.flatMap sent) := by
  induction history with
  | nil => exact .nil
  | cons m history ih =>
    obtain ⟨hm, hrest⟩ := List.forall_mem_cons.1 each
    rw [List.flatMap_cons]
    rcases hm with ⟨hdelivers, message, hmessage⟩ | ⟨hdelivers, hsent⟩
    · rw [List.filter_cons_of_pos hdelivers, hmessage.sent]
      exact .cons hmessage (ih hrest)
    · rw [List.filter_cons_of_neg (Bool.not_eq_true _ ▸ hdelivers), hsent]
      exact ih hrest

end Moment

namespace Director.Chronicle

variable {start director : Director β} {history : List (Moment β)}

/-- In a run from a script that a host can come by, a call of a sender that succeeds hands over
exactly one message. It has one parameter for each cell that is bound to the node, or one for the
default, with the values of that moment, no two under one key, and is stamped with the node, its
graph and the tick. A call of a sender that fails hands over nothing. A log gets what the calls hand
over, in their order. When no other node sends, that is one message for each call of a sender that
succeeds. -/
theorem dispatches (hosts : Hosts embed) (made : ∀ builder, placed builder → builder.Made)
    (senders : ∀ builder, placed builder → builder.type = Standard.sendMessageType →
      Standard.InstantiatedIn embed builder)
    (reachable : start.script.Reachable placed)
    (h : start.Chronicle (Move.Places placed) history director) :
    (∀ m ∈ history, ∀ node call, m.target? = some node → node.type = Standard.sendMessageType →
      m.call? = some call →
        (∀ latent, call.verdict = .ok latent → ∃ message, m.Dispatches message)
          ∧ ∀ stop, call.verdict = .error stop → m.sent = [])
      ∧ (∀ log, start.bridge = .recording log →
        director.bridge = .recording ⟨log.messages ++ history.flatMap Moment.sent⟩)
      ∧ ∀ kind, Mute kind →
        (∀ builder, placed builder → builder.type ≠ Standard.sendMessageType →
          kind builder.behavior) →
        List.Forall₂ Moment.Dispatches (history.filter Moment.delivers)
          (history.flatMap Moment.sent) := by
  have each (kind : β → Prop) (stays : Stays kind) (others : ∀ builder, placed builder →
      builder.type ≠ Standard.sendMessageType → kind builder.behavior) :
      ∀ m ∈ history, m.director.script.Mailing embed kind :=
    Chronicle.each (fun _ => .of_reachable hosts stays made senders others)
      (.outcome hosts stays) h reachable
  refine ⟨fun m hm node call ht htype hcall => ?_, fun _ => h.log, fun kind mute others =>
    Moment.forall₂_dispatches fun m hm =>
      Moment.delivers_cases hosts mute (each kind mute.stays others m hm)⟩
  have hmailing := each (fun _ => True) (fun _ _ _ _ _ => trivial) (fun _ _ _ => trivial) m hm
  rcases Moment.mails_cases hosts hmailing ht htype hcall with
    ⟨message, hmessage, hok⟩ | ⟨hsent, error, hfail⟩
  · refine ⟨fun _ _ => ⟨message, hmessage⟩, fun stop hstop => ?_⟩
    rw [hok] at hstop
    cases hstop
  · refine ⟨fun latent hlatent => ?_, fun _ _ => hsent⟩
    rw [hfail] at hlatent
    cases hlatent

end Director.Chronicle

namespace Director

/-- How to come by a message with an integer and a text for its parameters. -/
def lettering : List (Edit Standard) :=
  [.addNode rootGraph Standard.sendMessageNode,
    .addNode rootGraph (Standard.cell "Integer" (.int 0)),
    .addNode rootGraph (Standard.cell "String" (.string "")),
    .connectValue ⟨⟨0⟩, 0⟩ ⟨1⟩, .connectValue ⟨⟨0⟩, 0⟩ ⟨2⟩,
    .setProperty ⟨0⟩ "MessageName" (.string "hello")]

/-- A director that keeps its messages. -/
def courier : Director Standard where
  script := lettering.foldl Script.edit (.withRootName "root")
  bridge := .recording {}

/-- Two ticks, in each of which the message is asked for. Before the second its name is gone. -/
theorem dispatches_of_courier : ∃ history director,
    courier.Chronicle (Move.Places (Standard.InstantiatedIn id)) history director
      ∧ history.map Moment.delivers = [true, false]
      ∧ List.Forall₂ Moment.Dispatches (history.filter Moment.delivers)
        (history.flatMap Moment.sent)
      ∧ director.bridge = .recording ⟨history.flatMap Moment.sent⟩
      ∧ director.bridge.log.messages.map (fun message =>
        (message.name, Keyed.keys message.params, message.tick))
        = [("hello", ["Param", "Param1"], 1)] := by
  let ask : Move Standard := .triggerInput rootGraph ⟨0⟩ "In"
  let unname : Move Standard := .edit (.setProperty ⟨0⟩ "MessageName" (.int 1))
  have hrun : (((courier.move ask).update 9 0 0).bind fun first =>
      (((first.2.move unname).move ask).update 9 0 0).map fun second =>
        (((courier.move ask).history 9 0 0 ++ ((first.2.move unname).move ask).history 9 0 0).map
          Moment.delivers, second.2.bridge.log.messages.map fun message =>
            (message.name, Keyed.keys message.params, message.tick))) =
      some ([true, false], [("hello", ["Param", "Param1"], 1)]) := by decide +kernel
  obtain ⟨⟨_, between⟩, hfirst, hrest⟩ := Option.bind_eq_some_iff.1 hrun
  obtain ⟨⟨_, director⟩, hsecond, hseen⟩ := Option.map_eq_some_iff.1 hrest
  obtain ⟨hdelivers, hlog⟩ := Prod.mk.inj hseen
  have chronicle : courier.Chronicle (Move.Places (Standard.InstantiatedIn id)) _ director :=
    (((Chronicle.start.move ask trivial).tick hfirst).move unname trivial |>.move ask trivial).tick
      hsecond
  rw [List.nil_append] at chronicle
  have instantiated (type : TypeId) {builder : NodeBuilder Standard}
      (h : Standard.registry.create type [] = .ok builder) : Standard.InstantiatedIn id builder :=
    ⟨builder, ⟨type, [], h⟩, rfl⟩
  have reachable : courier.script.Reachable (Standard.InstantiatedIn id) := by
    refine .edits (.fresh "root") fun change hc => ?_
    simp only [lettering, List.mem_cons, List.not_mem_nil, or_false] at hc
    rcases hc with rfl | rfl | rfl | rfl | rfl | rfl
    · exact instantiated Standard.sendMessageType rfl
    · exact instantiated (cellType "Integer") rfl
    · exact instantiated (cellType "String") rfl
    all_goals trivial
  obtain ⟨-, hkept, hall⟩ := chronicle.dispatches Standard.hosts
    (by
      rintro _ ⟨builder, ⟨type, properties, hc⟩, rfl⟩
      exact Standard.places_made type properties builder hc)
    (fun _ h _ => h) reachable
  have hbridge := hkept {} rfl
  rw [show ({} : MessageLog).messages = [] from rfl, List.nil_append] at hbridge
  exact ⟨_, director, chronicle, hdelivers, hall _ Standard.hosts.mute fun _ h ht => h.other ht,
    hbridge, hlog⟩

end Director

end FlowScript
