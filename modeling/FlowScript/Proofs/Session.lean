import FlowScript.Proofs.Conservation
import FlowScript.Proofs.Lasting
import FlowScript.Proofs.Reachable

/-!
# Sessions of a host

In a session a host makes moves of a permitted kind and has ticks run, however they end. What holds
of the script, and is kept by each permitted edit and by the handling of each activation, holds
throughout (`Session.keeps`).
-/

namespace FlowScript

variable {β : Type}

/-- The move adds only nodes of permitted descriptions. -/
def Move.Places (placed : NodeBuilder β → Prop) : Move β → Prop
  | .edit change => change.Places placed
  | _ => True

variable [Behavior β]

namespace Director

/-- What comes of a director by permitted moves and by ticks. -/
inductive Session (permits : Move β → Prop) (start : Director β) : Director β → Prop where
  | start : Session permits start start
  | move {director : Director β} (move : Move β) (permitted : permits move)
      (session : Session permits start director) : Session permits start (director.move move)
  | tick {director after : Director β} {fuel : Nat} {sim real : Float}
      {ending : Except Halt Report} (session : Session permits start director)
      (updated : director.update fuel sim real = some (ending, after)) :
      Session permits start after

omit [Behavior β] in
/-- Only an edit changes the script at once. -/
theorem move_script (director : Director β) (move : Move β) :
    (director.move move).script = director.script
      ∨ ∃ change, move = .edit change
        ∧ (director.move move).script = director.script.edit change := by
  cases move with
  | enqueue activation =>
    obtain ⟨more, h⟩ := director.enqueue_injects activation
    refine .inl ?_
    rw [Director.move, h, inject]
  | triggerInput graph node input =>
    obtain ⟨more, h⟩ := director.triggerInput_injects graph node input
    refine .inl ?_
    rw [Director.move, h, inject]
  | edit change => exact .inr ⟨change, rfl, rfl⟩
  | _ => exact .inl rfl

namespace Session

variable {permits : Move β → Prop} {start director : Director β}

theorem moves (h : start.Session permits director) {list : List (Move β)}
    (permitted : ∀ next ∈ list, permits next) :
    start.Session permits (list.foldl Director.move director) := by
  induction list generalizing director with
  | nil => exact h
  | cons next list ih =>
    rw [List.forall_mem_cons] at permitted
    exact ih (h.move next permitted.1) permitted.2

theorem keeps {P : Script β → Prop}
    (edit : ∀ (script : Script β) (change : Edit β), permits (.edit change) → P script →
      P (script.edit change))
    (kept : ∀ m : Moment β, P m.director.script → P m.outcome.2.script)
    (h : start.Session permits director) (hs : P start.script) : P director.script := by
  induction h with
  | start => exact hs
  | @move director move permitted session ih =>
    rcases director.move_script move with heq | ⟨change, rfl, heq⟩
    · rw [heq]
      exact ih
    · rw [heq]
      exact edit _ change permitted ih
  | tick session updated ih => exact (keeps_update kept ih _ _ _).1 _ _ updated

theorem reachable {placed : NodeBuilder β → Prop}
    (places : ∀ change, permits (.edit change) → change.Places placed)
    (h : start.Session permits director) (hs : start.script.Reachable placed) :
    director.script.Reachable placed := by
  induction h with
  | start => exact hs
  | @move director move permitted session ih =>
    rcases director.move_script move with heq | ⟨change, rfl, heq⟩
    · rw [heq]
      exact ih
    · rw [heq]
      exact ih.edited change (places change permitted)
  | tick session updated ih => exact ih.stepped updated

end Session

end Director

end FlowScript
