import FlowScript.Proofs.WellTyped

/-!
# What standard behaviors ask for

Whatever the engine answers, a standard behavior reads and pulses, and does only a few other things:
it writes under the names of value links of its own node (`react_asks`), only the loop opens frames,
only a delay looks at the time that passes, only a remote call signals and only a sender sends
(`react_mayAsk`). It stays the same behavior but for its private state (`react_blank`).
-/

namespace FlowScript

variable {α γ σ : Type}

/-- Every request on every way through the program is of this kind. -/
def Program.Asks (P : Request → Prop) : Program α → Prop
  | .done _ => True
  | .ask r next => P r ∧ ∀ answer, (next answer).Asks P

namespace Program

variable {P : Request → Prop}

theorem Asks.bind {p : Program α} {f : α → Program γ} (hp : p.Asks P) (hf : ∀ a, (f a).Asks P) :
    (p >>= f).Asks P := by
  induction p with
  | done a => exact hf a
  | ask r next ih => exact ⟨hp.1, fun answer => ih answer (hp.2 answer)⟩

theorem Asks.mono {Q : Request → Prop} {p : Program α} (hp : p.Asks P) (h : ∀ r, P r → Q r) :
    p.Asks Q := by
  induction p with
  | done a => trivial
  | ask r next ih => exact ⟨h r hp.1, fun answer => ih answer (hp.2 answer)⟩

/-- What every answered request of this kind keeps is kept by the program. -/
theorem Asks.keeps {β : Type} (Inv : Turn β → Prop)
    (kept : ∀ turn r, P r → Inv turn → Inv (turn.answer r).2) {p : Program α} (hp : p.Asks P)
    {turn : Turn β} (h : Inv turn) : Inv (p.run turn).2 := by
  induction p generalizing turn with
  | done a => exact h
  | ask r next ih => exact ih _ (hp.2 _) (kept turn r hp.1 h)

theorem run_map {β : Type} (f : α → γ) (p : Program α) (turn : Turn β) :
    (f <$> p).run turn = (f (p.run turn).1, (p.run turn).2) :=
  p.run_bind _ turn

end Program

namespace Act

/-- Every request of the act is of this kind, whatever its private state. -/
def Asks (P : Request → Prop) (act : Act σ α) : Prop :=
  ∀ s, Program.Asks P (act.run.run s)

variable {P : Request → Prop}

namespace Asks

theorem pure {a : α} : (pure a : Act σ α).Asks P := fun _ => trivial

theorem bind {act : Act σ α} {f : α → Act σ γ} (h : act.Asks P) (hf : ∀ a, (f a).Asks P) :
    (act >>= f).Asks P := by
  intro s
  refine Program.Asks.bind (h s) fun ended => ?_
  obtain ⟨_ | a, s'⟩ := ended
  · exact trivial
  · exact hf a s'

theorem map {act : Act σ α} {f : α → γ} (h : act.Asks P) : (f <$> act).Asks P := by
  intro s
  refine Program.Asks.bind (h s) fun ended => ?_
  obtain ⟨_ | a, s'⟩ := ended
  · exact trivial
  · exact trivial

theorem ask {r : Request} (h : P r) : (Act.ask r : Act σ r.Answer).Asks P :=
  fun _ => ⟨h, fun _ => trivial⟩

theorem get : (get : Act σ σ).Asks P := fun _ => trivial

theorem set {s : σ} : (set s : Act σ PUnit).Asks P := fun _ => trivial

theorem modify {f : σ → σ} : (modify f : Act σ PUnit).Asks P := fun _ => trivial

theorem fail {error : NodeError} : (Act.fail error : Act σ α).Asks P := fun _ => trivial

theorem panic {text : Option String} : (Act.panic text : Act σ α).Asks P := fun _ => trivial

end Asks

end Act

/-- The request reads something other than a delta, or pulses an output. -/
def Request.Routine : Request → Prop
  | .simDelta | .realDelta | .script | .setProperty _ _ | .setSlot _ _ _ | .pushNode _ _
  | .pushTargets _ | .pushSelf | .signal _ _ | .send _ | .note _ => False
  | _ => True

/-- The request writes to a value link of one of these names, if it writes to a name. -/
def Request.Within (names : List String) : Request → Prop
  | .setProperty name _ => name ∈ names
  | _ => True

namespace Act

variable {P : Request → Prop} (routine : ∀ r : Request, r.Routine → P r)

include routine

theorem read_asks (name expected : String) (view : Property → Option α) :
    (read name expected view : Act σ α).Asks P := by
  refine .bind (.ask (routine _ trivial)) fun answer => ?_
  rcases answer with _ | value
  · exact .fail
  · dsimp only
    split
    · exact .pure
    · exact .fail

theorem outputIndex_asks (name : String) : (outputIndex name : Act σ Nat).Asks P := by
  refine .bind (.ask (routine _ trivial)) fun answer => ?_
  rcases answer with _ | index
  · exact .fail
  · exact .pure

theorem fire_asks (name : String) : (fire name : Act σ Unit).Asks P :=
  .bind (outputIndex_asks routine name) fun _ => .bind (.ask (routine _ trivial)) fun _ => .pure

theorem pushOutput_asks (targets : ∀ output, P (.pushTargets output)) (name : String) :
    (pushOutput name : Act σ Unit).Asks P :=
  .bind (outputIndex_asks routine name) fun _ => .ask (targets _)

omit routine in
theorem write_asks {name : String} (writes : ∀ value, P (.setProperty name value))
    (value : Property) : (write name value : Act σ Unit).Asks P :=
  .bind (.ask (writes value)) fun _ => .pure

end Act

namespace Standard

open Act

theorem successor_asks {P : Request → Prop} (i : Int64) : (successor i : Act σ Int64).Asks P := by
  unfold successor
  split
  · exact .panic
  · exact .pure

section acts

variable {P : Request → Prop} (routine : ∀ r : Request, r.Routine → P r)

include routine

theorem pulseFirst_asks : ∀ n, (pulseFirst n : Act σ Unit).Asks P
  | 0 => .pure
  | n + 1 => .bind (pulseFirst_asks n) fun _ => .bind (.ask (routine _ trivial)) fun _ => .pure

theorem fireOutputsAct_asks : (fireOutputsAct : Act σ Bool).Asks P :=
  .bind (.ask (routine _ trivial)) fun n => .bind (pulseFirst_asks routine n) fun _ => .pure

theorem toggleAct_asks (writes : ∀ value, P (.setProperty "Value" value)) (input : Option Nat) :
    (toggleAct input : Act σ Bool).Asks P := by
  have goOn (b : Bool) : (do
      Act.write "Value" (.bool b)
      Act.fire "Out"
      return false : Act σ Bool).Asks P :=
    .bind (write_asks writes _) fun _ => .bind (fire_asks routine "Out") fun _ => .pure
  unfold toggleAct
  split
  · exact goOn true
  · exact goOn false
  · exact .bind (.map (read_asks routine _ _ _)) goOn
  · exact .pure

theorem forLoopAct_asks (writes : ∀ value, P (.setProperty "CurrentIndex" value))
    (targets : ∀ output, P (.pushTargets output)) (again : P .pushSelf) (first : Bool) :
    (forLoopAct first).Asks P := by
  have goOn : (do
      let current ← get
      if (← Act.getInt "End") < current then
        Act.fire "Finished"
        return false
      Act.write "CurrentIndex" (.int current)
      Act.pushOutput "Out"
      Act.ask .pushSelf
      return false : Act Int64 Bool).Asks P := by
    refine .bind .get fun current => .bind (read_asks routine _ _ _) fun last => ?_
    split
    · exact .bind (fire_asks routine "Finished") fun _ => .pure
    · refine .bind (write_asks writes _) fun _ => ?_
      exact .bind (pushOutput_asks routine targets "Out") fun _ => .bind (.ask again) fun _ => .pure
  unfold forLoopAct
  cases first with
  | true => exact .bind (read_asks routine _ _ _) fun _ => .bind .set fun _ => goOn
  | false =>
    exact .bind .get fun _ => .bind (successor_asks _) fun _ => .bind .set fun _ => goOn

theorem switchAct_asks (writes : ∀ value, P (.setProperty "CurrentIndex" value))
    (input : Option Nat) : (switchAct input : Act σ Bool).Asks P := by
  have goOn (index : Int64) : (do
      let _ ← Act.pulse (index.toInt - 1).toNat
      Act.write "CurrentIndex" (.int (← successor index))
      return false : Act σ Bool).Asks P := by
    refine .bind (.ask (routine _ trivial)) fun _ => .bind (successor_asks index) fun _ => ?_
    exact .bind (write_asks writes _) fun _ => .pure
  unfold switchAct
  split
  · exact .bind (write_asks writes _) fun _ => .pure
  refine .bind (.ask (routine _ trivial)) fun (count : Nat) =>
    .bind (read_asks routine _ _ _) fun stored => ?_
  split
  · refine .bind (read_asks routine _ _ _) fun looping => ?_
    split
    · exact goOn 1
    · exact .pure
  · exact goOn _

theorem delayAct_asks (passed : P .simDelta) (input : Option Nat) (first : Bool) :
    (delayAct input first).Asks P := by
  have stop (name : String) : (do
      modify ({ · with running := false })
      Act.fire name
      return false : Act Countdown Bool).Asks P :=
    .bind .modify fun _ => .bind (fire_asks routine name) fun _ => .pure
  unfold delayAct
  split
  · refine .bind .get fun current => ?_
    split
    · exact stop "Cancelled"
    · exact .pure
  refine .bind (.ask (routine _ trivial)) fun tick => ?_
  split
  · refine .bind .set fun _ => .bind (read_asks routine _ _ _) fun delay => ?_
    split
    · exact stop "Out"
    · exact .pure
  refine .bind .get fun current => ?_
  split
  · exact .pure
  refine .bind (.ask passed) fun delta => .bind .set fun _ => ?_
  refine .bind (read_asks routine _ _ _) fun delay => ?_
  split
  · exact stop "Out"
  · exact .pure

theorem branchAct_asks : (branchAct : Act σ Bool).Asks P :=
  .bind (read_asks routine _ _ _) fun _ => .bind (fire_asks routine _) fun _ => .pure

theorem callRemoteEventAct_asks (signals : ∀ event scope, P (.signal event scope)) :
    (callRemoteEventAct : Act σ Bool).Asks P :=
  .bind (read_asks routine _ _ _) fun _ => .bind (read_asks routine _ _ _) fun _ =>
    .bind (.ask (signals _ _)) fun _ => .bind (fire_asks routine _) fun _ => .pure

theorem passThroughAct_asks : (passThroughAct : Act σ Bool).Asks P :=
  .bind (fire_asks routine _) fun _ => .pure

theorem addParams_asks (message : Message) : ∀ n : Nat,
    (addParams n message : Act σ Message).Asks P
  | 0 => .pure
  | n + 1 => by
    refine .bind (addParams_asks message n) fun filled => .bind (.ask (routine _ trivial))
      fun value => ?_
    rcases value with _ | value
    · exact .pure
    · exact .pure

theorem sendMessageAct_asks (sends : ∀ message, P (.send message)) :
    (sendMessageAct : Act σ Bool).Asks P := by
  refine .bind (read_asks routine _ _ _) fun name => .bind ?_ fun message =>
    .bind (.ask (routine _ trivial)) fun count => .bind (addParams_asks routine message count)
      fun filled => .bind (.ask (sends filled)) fun _ => .bind (fire_asks routine _) fun _ => .pure
  exact .bind (.ask (routine _ trivial)) fun _ => .bind (.ask (routine _ trivial)) fun _ =>
    .bind (.ask (routine _ trivial)) fun _ => .pure

end acts

/-- The names under which a behavior writes. -/
def writes : Standard → List String
  | toggle => ["Value"]
  | forLoop _ | switch => ["CurrentIndex"]
  | _ => []

/-- What a behavior may ask for. -/
def MayAsk (behavior : Standard) : Request → Prop
  | .setProperty name _ => name ∈ behavior.writes
  | .simDelta => behavior.blank = delay {}
  | .pushTargets _ | .pushSelf => behavior.blank = forLoop 0
  | .signal _ _ => behavior = callRemoteEvent
  | .send _ => behavior = sendMessage
  | .realDelta | .script | .setSlot _ _ _ | .pushNode _ _ | .note _ => False
  | _ => True

theorem mayAsk_of_routine (behavior : Standard) (r : Request) (h : r.Routine) :
    behavior.MayAsk r := by
  cases r <;> trivial

/-- A behavior asks for nothing else, whatever it is answered. -/
theorem react_mayAsk (behavior : Standard) (input : Option Nat) (first : Bool) :
    (react behavior input first).Asks behavior.MayAsk := by
  have routine := behavior.mayAsk_of_routine
  have alone {act : Act Unit Bool} (h : act.Asks behavior.MayAsk) :
      (stateless behavior act).Asks behavior.MayAsk :=
    Program.Asks.bind (h ()) fun _ => trivial
  cases behavior with
  | inert => trivial
  | fireOutputs => exact alone (fireOutputsAct_asks routine)
  | toggle => exact alone (toggleAct_asks routine (fun _ => List.mem_cons_self) input)
  | forLoop current =>
    refine Program.Asks.bind (?_ : Program.Asks _ _) fun _ => trivial
    exact forLoopAct_asks routine (fun _ => List.mem_cons_self) (fun _ => rfl) rfl first current
  | switch => exact alone (switchAct_asks routine (fun _ => List.mem_cons_self) input)
  | delay countdown =>
    exact Program.Asks.bind (delayAct_asks routine rfl input first countdown) fun _ => trivial
  | branch => exact alone (branchAct_asks routine)
  | callRemoteEvent => exact alone (callRemoteEventAct_asks routine fun _ _ => rfl)
  | passThrough => exact alone (passThroughAct_asks routine)
  | sendMessage => exact alone (sendMessageAct_asks routine fun _ => rfl)

theorem within_of_mayAsk {behavior : Standard} {r : Request} (h : behavior.MayAsk r) :
    r.Within behavior.writes := by
  cases r <;> trivial

/-- What a behavior of the catalog writes to by name are value links of its node. -/
theorem writes_subset {entry : TypeId × Factory Standard} (he : entry ∈ catalog)
    (properties : PropertySet) {behavior : Standard}
    (hb : behavior.blank = (entry.2 properties).behavior) :
    ∀ name ∈ behavior.writes, name ∈ (entry.2 properties).links.map (·.name) := by
  simp only [catalog, List.mem_cons, List.not_mem_nil, or_false] at he
  rcases he with rfl | rfl | rfl | rfl | rfl | rfl | rfl | rfl | rfl | rfl | rfl | rfl | rfl | rfl |
    rfl | rfl <;> cases behavior <;> cases hb <;> intro name hn
  case inl => exact hn
  case inr.inl => exact .tail _ (.tail _ hn)
  case inr.inr.inl => exact hn
  all_goals cases hn

/-- The value links that a behavior writes to by name are those of its node. -/
theorem react_asks {entry : TypeId × Factory Standard} (he : entry ∈ catalog)
    (properties : PropertySet) {behavior : Standard}
    (hb : behavior.blank = (entry.2 properties).behavior) (input : Option Nat) (first : Bool) :
    (react behavior input first).Asks
      (Request.Within ((entry.2 properties).links.map (·.name))) := by
  refine (react_mayAsk behavior input first).mono fun r hr => ?_
  have hwithin := within_of_mayAsk hr
  cases r with
  | setProperty name value => exact writes_subset he properties hb name hwithin
  | _ => trivial

/-- A call changes the private state of a behavior only. -/
theorem react_blank {β : Type} (behavior : Standard) (input : Option Nat) (first : Bool)
    (turn : Turn β) :
    ((react behavior input first).run turn).1.2.blank = behavior.blank := by
  cases behavior with
  | inert => rfl
  | forLoop current | delay countdown =>
    rw [react, Program.run_map]
    rfl
  | _ => rw [react, stateless, Program.run_map]

end Standard

end FlowScript
