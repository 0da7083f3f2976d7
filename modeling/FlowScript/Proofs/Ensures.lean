import FlowScript.Behavior.Turn
import FlowScript.Behavior.Act

/-!
# Programs under an invariant

A program ensures a condition under an invariant of turns if, from any turn with the invariant, it
ends in one and its result meets the condition. The rules follow the ways in which acts are put
together, so that an act is judged by its requests one at a time.
-/

namespace FlowScript

variable {α γ β σ : Type}

/-- From every turn with the invariant the program keeps it and its result is as wanted. -/
def Program.Ensures (Inv : Turn β → Prop) (p : Program α) (Q : α → Prop) : Prop :=
  ∀ turn, Inv turn → Inv (p.run turn).2 ∧ Q (p.run turn).1

namespace Program.Ensures

variable {Inv : Turn β → Prop}

theorem done {a : α} {Q : α → Prop} (h : Q a) : Ensures Inv (.done a) Q :=
  fun _ hi => ⟨hi, h⟩

theorem bind {p : Program α} {f : α → Program γ} {Mid : α → Prop} {Q : γ → Prop}
    (hp : p.Ensures Inv Mid) (hf : ∀ a, Mid a → (f a).Ensures Inv Q) :
    (p >>= f).Ensures Inv Q := by
  intro turn hi
  obtain ⟨hmid, ha⟩ := hp turn hi
  rw [Program.run_bind]
  exact hf _ ha _ hmid

theorem request {r : Request} {Q : r.Answer → Prop}
    (h : ∀ turn, Inv turn → Inv (turn.answer r).2 ∧ Q (turn.answer r).1) :
    (Program.request r).Ensures Inv Q :=
  h

theorem imp {p : Program α} {Q Q' : α → Prop} (hp : p.Ensures Inv Q)
    (h : ∀ a, Q a → Q' a) : p.Ensures Inv Q' :=
  fun turn hi => ⟨(hp turn hi).1, h _ (hp turn hi).2⟩

theorem map {p : Program α} {f : α → γ} {Q : γ → Prop}
    (hp : p.Ensures Inv fun a => Q (f a)) : (f <$> p).Ensures Inv Q :=
  hp.bind fun _ ha => .done ha

end Program.Ensures

namespace Act

/-- What an act ensures from a private state: a condition on its result and its state then, and one
on why it stops early, if it does. -/
def Ensures (Inv : Turn β → Prop) (act : Act σ α) (s : σ) (Q : α → σ → Prop)
    (Stops : Stop → Prop) : Prop :=
  Program.Ensures Inv (act.run.run s) fun ended =>
    match ended.1 with
    | .ok a => Q a ended.2
    | .error stop => Stops stop

namespace Ensures

variable {Inv : Turn β → Prop} {s : σ} {Stops : Stop → Prop}

theorem pure {a : α} {Q : α → σ → Prop} (h : Q a s) :
    (pure a : Act σ α).Ensures Inv s Q Stops :=
  Program.Ensures.done h

theorem bind {act : Act σ α} {f : α → Act σ γ} {Mid : α → σ → Prop} {Q : γ → σ → Prop}
    (h : act.Ensures Inv s Mid Stops) (hf : ∀ a s', Mid a s' → (f a).Ensures Inv s' Q Stops) :
    (act >>= f).Ensures Inv s Q Stops := by
  refine Program.Ensures.bind h fun ended hended => ?_
  obtain ⟨_ | a, s'⟩ := ended
  · exact Program.Ensures.done hended
  · exact hf a s' hended

theorem map {act : Act σ α} {f : α → γ} {Q : γ → σ → Prop}
    (h : act.Ensures Inv s (fun a => Q (f a)) Stops) : (f <$> act).Ensures Inv s Q Stops := by
  refine Program.Ensures.bind h fun ended hended => ?_
  obtain ⟨_ | a, s'⟩ := ended
  · exact Program.Ensures.done hended
  · exact Program.Ensures.done hended

theorem ask {r : Request} {Q : r.Answer → σ → Prop}
    (h : ∀ turn, Inv turn → Inv (turn.answer r).2 ∧ Q (turn.answer r).1 s) :
    (Act.ask r : Act σ r.Answer).Ensures Inv s Q Stops := by
  have hstate : (StateT.lift (Program.request r) s).Ensures Inv
      fun answered : r.Answer × σ => Q answered.1 answered.2 :=
    Program.Ensures.bind (Program.Ensures.request h) fun _ ha => .done ha
  exact Program.Ensures.bind hstate fun _ ha => .done ha

theorem get {Q : σ → σ → Prop} (h : Q s s) :
    (get : Act σ σ).Ensures Inv s Q Stops :=
  Program.Ensures.done h

theorem set {s' : σ} {Q : PUnit → σ → Prop} (h : Q ⟨⟩ s') :
    (set s' : Act σ PUnit).Ensures Inv s Q Stops :=
  Program.Ensures.done h

theorem modify {f : σ → σ} {Q : PUnit → σ → Prop} (h : Q ⟨⟩ (f s)) :
    (modify f : Act σ PUnit).Ensures Inv s Q Stops :=
  Program.Ensures.done h

theorem panic {text : Option String} {Q : α → σ → Prop} (h : Stops (.panicked text)) :
    (Act.panic text : Act σ α).Ensures Inv s Q Stops :=
  Program.Ensures.done h

/-- An act that is only judged by why it stops early. -/
theorem stops {act : Act σ Bool} (h : act.Ensures Inv s (fun _ _ => True) Stops) :
    (act.start s).Ensures Inv fun ended => ∀ stop, ended.1 = .error stop → Stops stop := by
  refine Program.Ensures.imp h fun ended hended => ?_
  obtain ⟨verdict, s'⟩ := ended
  rintro stop rfl
  exact hended

end Ensures

end Act

end FlowScript
