import FlowScript.Proofs.Asks

/-!
# Requests in their turn

What a program asks for may depend on what it was answered before. A program heeds a condition from
a turn on if each request that it then puts meets the condition in its own turn. So do the standard
behaviors: they stamp messages with their own node and look up the events that its properties name
(`react_heeds`).
-/

namespace FlowScript

variable {α γ β σ : Type}

/-- From the turn on, the program puts permitted requests only and ends as wanted. -/
def Program.Heeds (permits : Turn β → Request → Prop) (wants : α → Turn β → Prop) :
    Program α → Turn β → Prop
  | .done a, turn => wants a turn
  | .ask r next, turn =>
    permits turn r ∧ Heeds permits wants (next (turn.answer r).1) (turn.answer r).2

namespace Program.Heeds

variable {permits permits' : Turn β → Request → Prop} {wants wants' : α → Turn β → Prop}
  {p : Program α} {turn : Turn β}

theorem bind {f : α → Program γ} {mid : α → Turn β → Prop} {wants : γ → Turn β → Prop}
    (h : p.Heeds permits mid turn) (hf : ∀ a t, mid a t → (f a).Heeds permits wants t) :
    (p >>= f).Heeds permits wants turn := by
  induction p generalizing turn with
  | done a => exact hf a turn h
  | ask r next ih => exact ⟨h.1, ih _ h.2⟩

theorem both (h : p.Heeds permits wants turn) (h' : p.Heeds permits' wants' turn) :
    p.Heeds (fun t r => permits t r ∧ permits' t r) (fun a t => wants a t ∧ wants' a t) turn := by
  induction p generalizing turn with
  | done a => exact ⟨h, h'⟩
  | ask r next ih => exact ⟨⟨h.1, h'.1⟩, ih _ h.2 h'.2⟩

theorem imp (h : p.Heeds permits wants turn) (hw : ∀ a t, wants a t → wants' a t) :
    p.Heeds permits wants' turn := by
  induction p generalizing turn with
  | done a => exact hw a turn h
  | ask r next ih => exact ⟨h.1, ih _ h.2⟩

/-- A program whose requests are permitted in every turn remains in the call that it is in. -/
theorem of_asks {P : Request → Prop} (hp : p.Asks P) (h : ∀ t r, P r → permits t r) :
    p.Heeds permits (fun _ t => t.activation = turn.activation) turn := by
  have within : ∀ t : Turn β, t.activation = turn.activation →
      p.Heeds permits (fun _ t => t.activation = turn.activation) t := by
    induction p with
    | done a => exact fun t ht => ht
    | ask r next ih =>
      exact fun t ht => ⟨h t r hp.1, ih _ (hp.2 _) _ ((t.answer_activation r).trans ht)⟩
  exact within turn rfl

theorem keeps (Inv : Turn β → Prop) (kept : ∀ t r, permits t r → Inv t → Inv (t.answer r).2)
    (h : p.Heeds permits wants turn) (hi : Inv turn) : Inv (p.run turn).2 := by
  induction p generalizing turn with
  | done a => exact hi
  | ask r next ih => exact ih _ h.2 (kept turn r h.1 hi)

end Program.Heeds

/-- A message is stamped with the node that is called, and events are looked up as the properties of
this node say. -/
def Turn.Owns (turn : Turn β) : Request → Prop
  | .send message => message.node = turn.activation.node
  | .signal event scope => ∃ isLocal : Bool,
    (turn.script.property? turn.activation.node eventNameProperty).bind (·.asString?) = some event
      ∧ (turn.script.property? turn.activation.node "LocalOnly").bind (·.asBool?) = some isLocal
      ∧ scope = some (if isLocal then .nested else .everywhere)
  | _ => True

/-- A request that a standard behavior may put, in its own name. -/
abbrev Turn.Permits (behavior : Standard) (turn : Turn β) (r : Request) : Prop :=
  behavior.MayAsk r ∧ turn.Owns r

theorem Turn.owns_of_routine (turn : Turn β) {r : Request} (h : r.Routine) : turn.Owns r := by
  cases r <;> trivial

namespace Act

/-- From a private state and a turn on, the act puts permitted requests only, and unless it stops
early it ends as wanted. -/
def Heeds (permits : Turn β → Request → Prop) (act : Act σ α) (s : σ) (turn : Turn β)
    (wants : α → Turn β → Prop) : Prop :=
  (act.run.run s).Heeds permits (fun ended t => ∀ a, ended.1 = .ok a → wants a t) turn

namespace Heeds

variable {permits : Turn β → Request → Prop} {s : σ} {turn : Turn β}

theorem pure {a : α} {wants : α → Turn β → Prop} (h : wants a turn) :
    (pure a : Act σ α).Heeds permits s turn wants := by
  rintro _ ⟨⟩
  exact h

theorem bind {act : Act σ α} {f : α → Act σ γ} {mid : α → Turn β → Prop}
    {wants : γ → Turn β → Prop} (h : act.Heeds permits s turn mid)
    (hf : ∀ a s' t, mid a t → (f a).Heeds permits s' t wants) :
    (act >>= f).Heeds permits s turn wants := by
  refine Program.Heeds.bind h fun ended t hended => ?_
  obtain ⟨_ | a, s'⟩ := ended
  · rintro _ ⟨⟩
  · exact hf a s' t (hended a rfl)

theorem ask {r : Request} {f : r.Answer → Act σ γ} {wants : γ → Turn β → Prop}
    (hp : permits turn r)
    (hf : (f (turn.answer r).1).Heeds permits s (turn.answer r).2 wants) :
    (Act.ask r >>= f).Heeds permits s turn wants :=
  ⟨hp, hf⟩

theorem of_asks {P : Request → Prop} {act : Act σ α} (ha : act.Asks P)
    (hp : ∀ t r, P r → permits t r) :
    act.Heeds permits s turn fun _ t => t.activation = turn.activation :=
  (Program.Heeds.of_asks (ha s) hp).imp fun _ _ h _ _ => h

theorem fail {error : NodeError} {wants : α → Turn β → Prop} :
    (Act.fail error : Act σ α).Heeds permits s turn wants := by
  rintro _ ⟨⟩

theorem read {name expected : String} {view : Property → Option α}
    (hp : permits turn (.property name)) : (read name expected view : Act σ α).Heeds permits s turn
      fun a t => t = turn
        ∧ (turn.script.property? turn.activation.node name).bind view = some a := by
  refine .ask hp ?_
  simp only [Turn.answer]
  rcases turn.script.property? turn.activation.node name with _ | value
  · exact fail
  · rcases hv : view value with _ | a
    · simp only [hv]
      exact fail
    · simp only [hv]
      exact .pure ⟨rfl, hv⟩

end Heeds

end Act

namespace Standard

open Act

variable {permits : Turn β → Request → Prop} {s : σ} {turn : Turn β}

/-- A remote call looks up the events that its properties name. -/
theorem callRemoteEventAct_heeds :
    (callRemoteEventAct : Act σ Bool).Heeds Turn.Owns s turn fun _ _ => True := by
  refine .bind (.read trivial) fun event s' t ⟨ht, hevent⟩ => ?_
  refine .bind (.read trivial) fun isLocal s' t' ⟨ht', hlocal⟩ => ?_
  subst ht ht'
  refine .ask ⟨isLocal, hevent, hlocal, rfl⟩ ?_
  have hfire := fire_asks (σ := σ) (P := Request.Routine) (fun _ h => h) "Out"
  exact .bind (.of_asks hfire fun t _ => t.owns_of_routine) fun _ _ _ _ => .pure trivial

theorem addParams_heeds : ∀ (n : Nat) (message : Message) (s : σ) (turn : Turn β),
    message.node = turn.activation.node → (addParams n message : Act σ Message).Heeds Turn.Owns s
      turn fun filled t => filled.node = t.activation.node
  | 0, _, _, _, h => .pure h
  | n + 1, message, s, turn, h => by
    refine .bind (addParams_heeds n message s turn h) fun filled s' t hfilled => ?_
    refine .ask trivial ?_
    simp only [Turn.answer]
    split
    · exact .pure hfilled
    · exact .pure hfilled

theorem sendMessageAct_heeds :
    (sendMessageAct : Act σ Bool).Heeds Turn.Owns s turn fun _ _ => True := by
  refine .bind (.read trivial) fun name s' t _ => ?_
  have hmessage : (Act.message name : Act σ Message).Heeds Turn.Owns s' t
      fun message t' => message.node = t'.activation.node :=
    .ask trivial (.ask trivial (.ask trivial (.pure rfl)))
  refine .bind hmessage fun message s' t hmessage => .ask trivial ?_
  refine .bind (addParams_heeds _ message s' t hmessage) fun filled s' t hfilled => ?_
  have hfire := fire_asks (σ := σ) (P := Request.Routine) (fun _ h => h) "Out"
  refine .ask hfilled (.bind (.of_asks hfire fun t _ => t.owns_of_routine) fun _ _ _ _ => ?_)
  exact .pure trivial

/-- Whatever the engine answers, a behavior asks in each turn for what it may ask for, in its own
name. -/
theorem react_heeds (behavior : Standard) (input : Option Nat) (first : Bool) (turn : Turn β) :
    (react behavior input first).Heeds (Turn.Permits behavior) (fun _ _ => True) turn := by
  have hasks := react_mayAsk behavior input first
  have may : (react behavior input first).Heeds (fun _ r => behavior.MayAsk r)
      (fun _ t => t.activation = turn.activation) turn := .of_asks hasks fun _ _ h => h
  have own : (react behavior input first).Heeds Turn.Owns (fun _ _ => True) turn := by
    cases behavior with
    | callRemoteEvent =>
      have hact : (callRemoteEventAct : Act Unit Bool).Heeds Turn.Owns () turn fun _ _ => True :=
        callRemoteEventAct_heeds
      exact .bind hact fun _ _ _ => trivial
    | sendMessage =>
      have hact : (sendMessageAct : Act Unit Bool).Heeds Turn.Owns () turn fun _ _ => True :=
        sendMessageAct_heeds
      exact .bind hact fun _ _ _ => trivial
    | _ =>
      refine (Program.Heeds.of_asks hasks fun t r hr => ?_).imp fun _ _ _ => trivial
      cases r <;> trivial
  exact (may.both own).imp fun _ _ _ => trivial

end Standard

end FlowScript
