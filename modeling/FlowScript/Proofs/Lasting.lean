import FlowScript.Proofs.History

/-!
# What a tick keeps

A tick changes its script in two ways only. A behavior changes it through its requests, and the
director takes the behavior of the called node out, puts it back and sets the pulses of its outputs
(`Moment.leaves`). What the handling of each activation keeps holds throughout a tick
(`keeps_update`), and a relation that holds across each change holds across every tick, however it
ends (`Lasting.update`).
-/

namespace FlowScript

variable {β : Type}

/-- The output without its pulses. -/
def OutputLink.skeleton (link : OutputLink) : OutputLink := { link with active := 0 }

/-- The node has changed in nothing but its behavior and the pulses of its outputs. -/
def Node.Booked (node node' : Node β) : Prop :=
  ∃ behavior outputs, node' = { node with behavior := behavior, outputs := outputs }
    ∧ outputs.map OutputLink.skeleton = node.outputs.map OutputLink.skeleton

theorem restoreActive_skeleton : ∀ (links : List OutputLink) (ns : List Nat),
    (restoreActive links ns).map OutputLink.skeleton = links.map OutputLink.skeleton
  | [], _ => by simp [restoreActive]
  | link :: links, [] => rfl
  | link :: links, n :: ns => by
    rw [restoreActive, List.map_cons, List.map_cons, restoreActive_skeleton links ns]
    rfl

theorem Node.booked_none (node : Node β) : node.Booked { node with behavior := none } :=
  ⟨none, node.outputs, rfl, rfl⟩

theorem Node.Booked.id {node node' : Node β} (h : node.Booked node') : node'.id = node.id := by
  obtain ⟨behavior, outputs, rfl, -⟩ := h
  rfl

/-- The turn of a call starts with the behavior of the node taken out. -/
theorem Director.node?_turn {director : Director β} {activation : Activation} {node : Node β}
    (hn : director.script.node? activation.node = some node) (graph : GraphId) :
    (director.turn activation graph).node? = some { node with behavior := none } := by
  have hself := director.script.node?_modifyNode_self ({ · with behavior := none }) (fun _ => rfl)
    activation.node
  rw [hn, Option.map_some] at hself
  exact hself

section handling

variable [Behavior β]

namespace Moment

/-- What the handling of an activation can leave of the script. A call that is let through by a
panic leaves the node without its behavior; after any other call the behavior is back, and what the
director changes besides it are pulses. -/
inductive Leaves (m : Moment β) : Script β → Prop where
  | untouched : Leaves m m.director.script
  | unwound {node : Node β} {behavior : β} (target : m.target? = some node)
      (owned : node.behavior = some behavior) : Leaves m (m.answered node behavior).2.script
  | booked {node : Node β} {behavior : β} {book : Node β → Node β} (target : m.target? = some node)
      (owned : node.behavior = some behavior) (kept : ∀ n : Node β, n.Booked (book n))
      (back : ∀ n, (book n).behavior = some (m.answered node behavior).1.2) :
      Leaves m ((m.answered node behavior).2.script.modifyNode m.activation.node book)

theorem leaves (m : Moment β) : m.Leaves m.outcome.2.script := by
  rcases ht : m.target? with _ | node
  · rw [outcome_of_target?_none ht]
    exact .untouched
  rcases hb : node.behavior with _ | behavior
  · rw [outcome_of_behavior_none ht hb]
    exact .untouched
  have hnode := m.answered_activation node behavior
  have complete (director : Director β) (hd : director.script = (m.answered node behavior).2.script)
      (latent : Bool) : m.Leaves (director.complete (m.answered node behavior).2
        (m.answered node behavior).1.2 latent).2.script := by
    have left : m.Leaves director.script := hd ▸ .unwound ht hb
    unfold Director.complete
    split
    · exact left
    · rw [hd, hnode]
      refine .booked ht hb (fun n => ⟨_, _, rfl, ?_⟩) fun _ => rfl
      rw [List.map_map]
      refine List.map_congr_left fun link _ => ?_
      simp only [Function.comp, OutputLink.drain_eq, OutputLink.skeleton]
  have withdraw (director : Director β) (hd : director.script = (m.answered node behavior).2.script)
      (before : List Nat) (error : NodeError) : m.Leaves (director.withdraw (m.record node)
        (m.answered node behavior).1.2 before error).2.script := by
    have left : m.Leaves director.script := hd ▸ .unwound ht hb
    unfold Director.withdraw
    split
    · exact left
    · rw [hd]
      exact .booked ht hb (fun n => ⟨_, _, rfl, restoreActive_skeleton n.outputs before⟩)
        fun _ => rfl
  rw [outcome_of_behavior ht hb]
  unfold Director.settle
  split
  · exact complete _ rfl _
  · exact withdraw _ rfl _ _
  · split
    · exact withdraw _ rfl _ _
    · exact .unwound ht hb

end Moment

/-- The view of a director does not show its clock, what waits and what watchers were told. -/
def Director.Overlooks {γ : Type} (view : Director β → γ) : Prop :=
  ∀ (director : Director β) (clock : Clock) (phase : Phase) (nextWave injected : List Activation)
    (told : List Observation),
    view { director with
      clock := clock, phase := phase, nextWave := nextWave, injected := injected, told := told }
        = view director

namespace Drain

section view

variable {γ : Type} {view : Director β → γ} (overlooks : Director.Overlooks view)

include overlooks

/-- Whatever becomes of an activation, the view is then what its call left. -/
theorem handle_view (drain : Drain β) (a : Activation) :
    (drain.handle a).elim (fun next => view next.director) (fun ending => view ending.2) =
      view (drain.moment a).outcome.2 := by
  rw [handle_eq]
  generalize (drain.moment a).outcome = outcome
  obtain ⟨fate, director⟩ := outcome
  cases fate with
  | completed effects =>
    simp only [Sum.elim_inl, schedule_director]
    exact overlooks director _ _ _ _ _
  | _ => rfl

/-- A fact about what is seen before and after a tick, however it ends: it holds where nothing is
handled, and handling an activation hands it from the rest of the tick to the whole. -/
theorem view_induction {motive : γ → List (Moment β) → γ → Prop}
    (done : ∀ seen, motive seen [] seen)
    (handle : ∀ (m : Moment β) history after, motive (view m.outcome.2) history after →
      motive (view m.director) (m :: history) after) :
    ∀ (fuel : Nat) (drain : Drain β) (ending : Except Halt Report) (after : Director β),
      drain.run fuel = some (ending, after) →
        motive (view drain.director) (drain.history fuel) (view after)
  | 0, drain, ending, after, h => by simp [run] at h
  | fuel + 1, drain, ending, after, h => by
    have ih := view_induction done handle fuel
    rw [run] at h
    rw [history]
    rcases hn : drain.next? with _ | ⟨a, rest⟩
    · rcases step_of_next?_none hn with ⟨stack, -, hstep⟩ | ⟨-, -, hstep⟩ <;>
        simp only [hstep, Option.map_none, Option.toList_none, List.nil_append] at h ⊢
      · exact ih _ _ _ h
      · obtain ⟨-, rfl⟩ := Prod.mk.inj (Option.some.inj h)
        have hsame : view drain.finish.2 = view drain.director := overlooks drain.director _ _ _ _ _
        exact hsame ▸ done _
    · have hview := handle_view overlooks rest a
      rw [← (next?_eq_some hn).1]
      simp only [step_of_next?_some hn, Option.map_some, Option.toList_some,
        List.singleton_append] at h ⊢
      refine handle (rest.moment a) _ _ ?_
      rw [← hview]
      rcases hh : rest.handle a with next | ⟨ending', after'⟩ <;> rw [hh] at h
      · exact ih _ _ _ h
      · obtain ⟨-, rfl⟩ := Prod.mk.inj (Option.some.inj h)
        exact done _

end view

theorem handle_script (drain : Drain β) (a : Activation) :
    (drain.handle a).elim (·.director.script) (·.2.script) =
      (drain.moment a).outcome.2.script :=
  handle_view (fun _ _ _ _ _ _ => rfl) drain a

variable {P : Script β → Prop}
  (kept : ∀ m : Moment β, P m.director.script → P m.outcome.2.script)

include kept

theorem keeps_step (drain : Drain β) (hs : P drain.director.script) :
    P (drain.step.elim (·.director.script) (·.2.script)) := by
  rcases hn : drain.next? with _ | ⟨a, rest⟩
  · rcases step_of_next?_none hn with ⟨stack, -, hstep⟩ | ⟨-, -, hstep⟩ <;> rw [hstep] <;> exact hs
  · rw [step_of_next?_some hn, handle_script]
    refine kept _ ?_
    rwa [moment, (next?_eq_some hn).1]

theorem keeps : ∀ (fuel : Nat) (drain : Drain β), P drain.director.script →
    (∀ ending after, drain.run fuel = some (ending, after) → P after.script)
      ∧ ∀ m ∈ drain.history fuel, P m.director.script
  | 0, drain, _ => by simp [run, history]
  | fuel + 1, drain, hs => by
    have hstep := keeps_step kept drain hs
    have hhead : ∀ m ∈ (drain.next?.map fun taken => taken.2.moment taken.1).toList,
        P m.director.script := by
      intro m hm
      obtain ⟨⟨a, rest⟩, hn, rfl⟩ := Option.map_eq_some_iff.1 (Option.mem_toList.1 hm)
      rwa [moment, (next?_eq_some hn).1]
    rw [run, history, List.forall_mem_append]
    rcases hd : drain.step with next | ⟨ending, after⟩ <;> rw [hd] at hstep
    · obtain ⟨hrun, hhistory⟩ := keeps fuel next hstep
      exact ⟨hrun, hhead, hhistory⟩
    · refine ⟨fun ending' after' h => ?_, hhead, List.forall_mem_nil _⟩
      obtain ⟨-, rfl⟩ := Prod.mk.inj (Option.some.inj h)
      exact hstep

end Drain

namespace Director

theorem view_induction {γ : Type} {view : Director β → γ} (overlooks : Overlooks view)
    {motive : γ → List (Moment β) → γ → Prop} (done : ∀ seen, motive seen [] seen)
    (handle : ∀ (m : Moment β) history after, motive (view m.outcome.2) history after →
      motive (view m.director) (m :: history) after)
    {director after : Director β} {fuel : Nat} {sim real : Float} {ending : Except Halt Report}
    (h : director.update fuel sim real = some (ending, after)) :
    motive (view director) (director.history fuel sim real) (view after) := by
  unfold update at h
  unfold history
  generalize director.fault = fault at h ⊢
  rcases fault with _ | reason
  · have hbegin : view (director.begin sim real).director = view director :=
      overlooks director _ _ _ _ _
    exact hbegin ▸ Drain.view_induction overlooks done handle fuel (director.begin sim real) _ _ h
  · obtain ⟨-, rfl⟩ := Prod.mk.inj (Option.some.inj h)
    exact done _

theorem script_induction {motive : Script β → List (Moment β) → Script β → Prop}
    (done : ∀ script, motive script [] script)
    (handle : ∀ (m : Moment β) history after, motive m.outcome.2.script history after →
      motive m.director.script (m :: history) after)
    {director after : Director β} {fuel : Nat} {sim real : Float} {ending : Except Halt Report}
    (h : director.update fuel sim real = some (ending, after)) :
    motive director.script (director.history fuel sim real) after.script :=
  view_induction (fun _ _ _ _ _ _ => rfl) done handle h

/-- What the handling of each activation keeps outlasts a tick and holds at each of its moments. -/
theorem keeps_update {P : Script β → Prop}
    (kept : ∀ m : Moment β, P m.director.script → P m.outcome.2.script) {director : Director β}
    (hs : P director.script) (fuel : Nat) (sim real : Float) :
    (∀ ending after, director.update fuel sim real = some (ending, after) → P after.script)
      ∧ ∀ m ∈ director.history fuel sim real, P m.director.script := by
  unfold update history
  rcases director.fault with _ | reason
  · exact Drain.keeps kept fuel (director.begin sim real) hs
  · refine ⟨fun ending after h => ?_, List.forall_mem_nil _⟩
    obtain ⟨-, rfl⟩ := Prod.mk.inj (Option.some.inj h)
    exact hs

end Director

end handling

namespace Script

/-- A relation of scripts that holds across everything that a call does. -/
structure Lasting (R : Script β → Script β → Prop) : Prop where
  refl (script : Script β) : R script script
  trans {first second third : Script β} : R first second → R second third → R first third
  answer (turn : Turn β) (r : Request) : R turn.script (turn.answer r).2.script
  book (script : Script β) (id : NodeId) (f : Node β → Node β) :
    (∀ node : Node β, node.Booked (f node)) → R script (script.modifyNode id f)

namespace Lasting

variable {R : Script β → Script β → Prop} (lasting : Lasting R)

include lasting

theorem run {α : Type} (p : Program α) (turn : Turn β) : R turn.script (p.run turn).2.script := by
  induction p generalizing turn with
  | done a => exact lasting.refl _
  | ask r next ih => exact lasting.trans (lasting.answer turn r) (ih _ _)

variable [Behavior β]

theorem outcome (m : Moment β) : R m.director.script m.outcome.2.script := by
  have answered : ∀ (node : Node β) (behavior : β),
      R m.director.script (m.answered node behavior).2.script := by
    intro node behavior
    have out : R m.director.script (m.director.turn m.activation node.graph).script :=
      lasting.book _ _ _ Node.booked_none
    exact lasting.trans out (lasting.run _ _)
  generalize m.outcome.2.script = left, m.leaves = hleft
  cases hleft with
  | untouched => exact lasting.refl _
  | unwound target owned => exact answered _ _
  | booked target owned kept back => exact lasting.trans (answered _ _) (lasting.book _ _ _ kept)

/-- What lasts through requests and the director's bookkeeping lasts through every tick. -/
theorem update {director after : Director β} {fuel : Nat} {sim real : Float}
    {ending : Except Halt Report} (h : director.update fuel sim real = some (ending, after)) :
    R director.script after.script :=
  (Director.keeps_update (P := R director.script) (fun m hm => lasting.trans hm (lasting.outcome m))
    (lasting.refl _) fuel sim real).1 ending after h

end Lasting

end Script

end FlowScript
