import FlowScript.Proofs.Containment
import FlowScript.Proofs.Feeding
import FlowScript.Proofs.Untouched
import Mathlib.Data.List.Perm.Subperm

/-!
# Open frames

What a call opens goes on top of the frames that are open, and the frames below are not touched
until everything above them is drained (`Handles.above`, `drained_above`). A tick that ends well
handles whatever enters a frame (`entered_handled`). A call enters fresh activations only, apart
from its own activation resumed (`Moment.first_of_entered`).
-/

namespace FlowScript

variable {α β : Type}

/-! ## What a call enters -/

/-- Every activation in the frames is fresh or the turn's own, resumed. -/
def Turn.OpensFresh (turn : Turn β) : Prop :=
  ∀ a ∈ turn.frames.flatten, a.first = true ∨ a = turn.activation.resumed

theorem OutputLink.first_of_mem_targets {link : OutputLink} {a : Activation}
    (h : a ∈ link.targets) : a.first = true := by
  obtain ⟨input, -, rfl⟩ := List.mem_map.1 h
  rfl

namespace Turn

variable {turn : Turn β}

theorem OpensFresh.push (h : turn.OpensFresh) {frame : List Activation}
    (hf : ∀ a ∈ frame, a.first = true ∨ a = turn.activation.resumed) :
    (turn.push frame).OpensFresh := by
  intro a ha
  have hframes : (turn.push frame).frames.flatten = turn.frames.flatten ++ frame := by
    simp [Turn.push]
  rw [hframes] at ha
  exact (List.mem_append.1 ha).elim (h a) (hf a)

theorem OpensFresh.answer (h : turn.OpensFresh) (r : Request) : (turn.answer r).2.OpensFresh := by
  cases r with
  | pulse output =>
    simp only [Turn.answer, pulse]
    split <;> exact h
  | pushNode node input => exact h.push fun a ha => .inl (List.mem_singleton.1 ha ▸ rfl)
  | pushTargets output =>
    simp only [Turn.answer, pushTargets]
    split
    · exact h
    · refine h.push fun a ha => ?_
      rcases hl : turn.node?.bind (·.outputs[output]?) with _ | link <;> rw [hl] at ha
      · cases ha
      · exact .inl (OutputLink.first_of_mem_targets ha)
  | pushSelf => exact h.push fun a ha => .inr (List.mem_singleton.1 ha)
  | _ => exact h

theorem OpensFresh.run (h : turn.OpensFresh) (p : Program α) : (p.run turn).2.OpensFresh := by
  induction p generalizing turn with
  | done a => exact h
  | ask r next ih => exact ih _ (h.answer r)

theorem first_of_fired {a : Activation} (h : a ∈ turn.fired) : a.first = true := by
  unfold fired at h
  rcases hn : turn.node? with _ | node <;> rw [hn] at h
  · cases h
  · obtain ⟨link, -, ha⟩ := List.mem_flatMap.1 h
    obtain ⟨targets, ht, ha⟩ := List.mem_flatten.1 ha
    rw [List.eq_of_mem_replicate ht] at ha
    exact OutputLink.first_of_mem_targets ha

end Turn

section ticks

variable [Behavior β]

theorem Moment.first_of_entered {m : Moment β} {a : Activation} (h : a ∈ m.entered) :
    a.first = true ∨ a = m.activation.resumed := by
  unfold entered at h
  split at h
  · rename_i turn found hc
    obtain ⟨node, behavior, -, -, -, rfl⟩ := call?_eq_some hc
    rcases List.mem_append.1 h with ha | ha
    · have hstart : (m.director.turn m.activation node.graph).OpensFresh := by
        intro b hb
        cases hb
      have hopens := hstart.run (Behavior.react behavior m.activation.input m.activation.first)
      rw [← m.answered_activation node behavior]
      exact hopens a ha
    · split at ha
      · cases ha
      · exact .inl (Turn.first_of_fired ha)
  · cases h

namespace Drain

variable {drain rest next : Drain β} {a : Activation}

/-! ## The first step of a tick -/

/-- An exhausted frame is closed, and nothing is handled. -/
theorem close_first {stack : List (List Activation)} (hs : drain.stack = [] :: stack) (fuel : Nat) :
    drain.history (fuel + 1) = history fuel { drain with stack := stack }
      ∧ drain.run (fuel + 1) = run fuel { drain with stack := stack } := by
  have hn : drain.next? = none := by rw [next?, hs]
  have hstep : drain.step = .inl { drain with stack := stack } := by rw [step, hs]
  rw [history, run, hn, hstep]
  exact ⟨rfl, rfl⟩

theorem handle_first (hn : drain.next? = some (a, rest)) (hh : rest.handle a = .inl next)
    (fuel : Nat) : drain.history (fuel + 1) = rest.moment a :: next.history fuel
      ∧ drain.run (fuel + 1) = next.run fuel := by
  rw [history, run, step_of_next?_some hn, hn, hh]
  exact ⟨rfl, rfl⟩

theorem halt_first {ending : Ending β} (hn : drain.next? = some (a, rest))
    (hh : rest.handle a = .inr ending) (fuel : Nat) :
    drain.history (fuel + 1) = [rest.moment a] ∧ drain.run (fuel + 1) = some ending := by
  rw [history, run, step_of_next?_some hn, hn, hh]
  exact ⟨rfl, rfl⟩

/-! ## Segments of the stack -/

/-- The stack without its innermost frame, if that one is exhausted. -/
def closed : List (List Activation) → List (List Activation)
  | [] :: below => below
  | stack => stack

omit [Behavior β] in
/-- The frames that a call opens come on top, and an exhausted one is closed before. -/
theorem schedule_opened (drain : Drain β) (a : Activation) (effects : Effects)
    (hf : effects.frames ≠ []) : (drain.schedule a effects).stack =
      effects.frames ++ (if effects.fired = [] then [] else [effects.fired])
        ++ closed drain.stack := by
  obtain ⟨frame, frames, hframes⟩ := List.exists_cons_of_ne_nil hf
  rw [schedule_stack, hframes]
  rcases drain.stack with _ | ⟨_ | ⟨b, top⟩, stack⟩ <;> rfl

/-- While some frame of a segment of the stack is open, nothing below the segment is touched. -/
theorem Handles.above {frame : List Activation} {upper below : List (List Activation)}
    (h : drain.Handles a next) (hs : drain.stack = frame :: upper ++ below) :
    ∃ upper', next.stack = upper' ++ below
      ∧ upper'.flatten.Perm ((frame :: upper).flatten ++ (drain.moment a).entered) := by
  have hstack : ∃ upper', next.stack = upper' ++ below := by
    cases h with
    | discarded target => exact ⟨_, hs⟩
    | failed node call script error target made verdict fate => exact ⟨_, hs⟩
    | completed node call script latent target made verdict after spent =>
      rw [schedule_stack]
      simp only [accept, hs, List.cons_append]
      generalize (call.effects latent).frames = frames
      rcases frames with _ | ⟨first, frames⟩
      · exact ⟨_ :: upper, rfl⟩
      · rcases frame with _ | ⟨b, frame⟩
        · exact ⟨_, (List.append_assoc _ upper below).symm⟩
        · exact ⟨_ ++ (b :: frame) :: upper, (List.append_assoc _ (_ :: upper) below).symm⟩
  obtain ⟨upper', hupper⟩ := hstack
  refine ⟨upper', hupper, ?_⟩
  -- Of all that waits in frames, what waits below is the same before and after.
  have hframes := h.frames
  rw [hupper, hs, List.flatten_append, List.flatten_append, List.append_assoc] at hframes
  refine (List.perm_append_right_iff below.flatten).1 (hframes.trans ?_)
  rw [List.append_assoc]
  exact List.Perm.append_left _ List.perm_append_comm

/-- Whatever waits or enters a frame is handled before the tick ends well. -/
theorem entered_handled {fuel : Nat} {drain : Drain β} {report : Report} {after : Director β}
    (h : drain.run fuel = some (.ok report, after)) :
    drain.waiting.Subperm ((drain.history fuel).map (·.activation))
      ∧ ∀ earlier m later, drain.history fuel = earlier ++ m :: later →
        m.entered.Subperm (later.map (·.activation)) := by
  refine run_induction (motive := fun drain history _ _ =>
    drain.waiting.Subperm (history.map (·.activation))
      ∧ ∀ earlier m later, history = earlier ++ m :: later →
        m.entered.Subperm (later.map (·.activation))) ?_ ?_ ?_ _ _ _ _ h
  · intro drain hs hw _ _ _
    rw [waiting, hs, hw]
    exact ⟨List.nil_subperm, fun earlier m later heq => by simp at heq⟩
  · intro drain stack history _ _ hs ih
    rw [waiting, hs, List.flatten_cons, List.nil_append]
    exact ih
  · intro drain rest next a history _ _ hn hh ih
    obtain ⟨hwaiting, hparts⟩ := ih
    refine ⟨?_, fun earlier m later heq => ?_⟩
    · rw [(next?_eq_some hn).2.2, List.map_cons]
      refine (List.subperm_cons a).2 (List.Subperm.trans ?_ hwaiting)
      exact (List.sublist_append_left _ _).subperm.trans hh.waiting.symm.subperm
    · rcases earlier with _ | ⟨first, earlier⟩
      · obtain ⟨rfl, rfl⟩ := List.cons.inj heq
        refine List.Subperm.trans ?_ hwaiting
        exact (List.sublist_append_right _ _).subperm.trans hh.waiting.symm.subperm
      · exact hparts earlier m later (List.cons.inj heq).2

end Drain

/-! ## Runs of a node -/

namespace Moment

/-- The node is called, and does not call itself again in this tick. -/
def Closes (id : NodeId) (m : Moment β) : Prop :=
  m.isInvoked = true ∧ m.activation.node = id ∧ m.activation.resumed ∉ m.entered

instance (id : NodeId) (m : Moment β) : Decidable (m.Closes id) :=
  inferInstanceAs (Decidable (_ ∧ _ ∧ _))

/-- The moments up to the first call of the node after which it does not call itself again. -/
def runOf (id : NodeId) : List (Moment β) → List (Moment β)
  | [] => []
  | m :: later => m :: if m.Closes id then [] else runOf id later

/-- The run of the node is not cut short: it ends, or else the tick ends well. -/
def Ends (id : NodeId) (ending : Except Halt Report) (history : List (Moment β)) : Prop :=
  (∃ report, ending = .ok report) ∨ ∃ m ∈ history, m.Closes id

variable {id : NodeId} {m : Moment β} {later : List (Moment β)} {ending : Except Halt Report}

theorem runOf_of_closes (h : m.Closes id) : runOf id (m :: later) = [m] := by
  rw [runOf, if_pos h]

theorem runOf_of_not_closes (h : ¬ m.Closes id) : runOf id (m :: later) = m :: runOf id later := by
  rw [runOf, if_neg h]

theorem runOf_append : ∀ {body later : List (Moment β)}, (∀ m ∈ body, ¬ m.Closes id) →
    runOf id (body ++ later) = body ++ runOf id later
  | [], _, _ => rfl
  | m :: body, later, h => by
    rw [List.cons_append, runOf_of_not_closes (h m List.mem_cons_self),
      runOf_append fun m' hm => h m' (List.mem_cons_of_mem _ hm), List.cons_append]

theorem entered_of_not_invoked (h : m.isInvoked = false) : m.entered = [] := by
  rw [isInvoked, Option.isSome_eq_false_iff, Option.isNone_iff_eq_none] at h
  rw [entered, h]

theorem Ends.tail (h : Ends id ending (m :: later)) (hm : ¬ m.Closes id) :
    Ends id ending later := by
  rcases h with h | ⟨m', hm', hcloses⟩
  · exact .inl h
  · rcases List.mem_cons.1 hm' with rfl | hm'
    · exact absurd hcloses hm
    · exact .inr ⟨m', hm', hcloses⟩

theorem Ends.append : ∀ {body later : List (Moment β)}, Ends id ending (body ++ later) →
    (∀ m ∈ body, ¬ m.Closes id) → Ends id ending later
  | [], _, h, _ => h
  | m :: _, _, h, hbody => (h.tail (hbody m List.mem_cons_self)).append fun m' hm =>
      hbody m' (List.mem_cons_of_mem _ hm)

end Moment

open Moment

namespace Drain

/-- Between two states of a tick the moments are handled and what is above some frames is drained,
without a call of the node. -/
structure Clears (id : NodeId) (upper below : List (List Activation)) (body : List (Moment β))
    (drain mid : Drain β) : Prop where
  stack : mid.stack = below
  config : mid.director.config = drain.director.config
  begins : ∀ m ∈ body.head?, m.director = drain.director
  apart : ∀ m ∈ body, m.activation.node = id → m.isInvoked = false
  drained : (body.map (·.activation)).Perm (upper.flatten ++ body.flatMap Moment.entered)
  spares : Script.Spares (Moment.Calls body) drain.director.script mid.director.script

namespace Clears

variable {id : NodeId} {a : Activation} {frame : List Activation}
  {upper upper' below : List (List Activation)} {body : List (Moment β)}
  {drain rest next mid : Drain β}

theorem none (hs : drain.stack = below) : Clears id [] below [] drain drain where
  stack := hs
  config := rfl
  begins _ hm := (Option.some_ne_none _ hm.symm).elim
  apart := List.forall_mem_nil _
  drained := .refl _
  spares := .refl _

theorem not_closes (h : Clears id upper below body drain mid) : ∀ m ∈ body, ¬ m.Closes id := by
  rintro m hm ⟨hinvoked, hnode, -⟩
  rw [h.apart m hm hnode] at hinvoked
  cases hinvoked

/-- One more activation is handled first, which leads to some of what is drained. -/
theorem handle (h : Clears id upper' below body next mid) (hh : rest.handle a = .inl next)
    (hquiet : a.node = id → (rest.moment a).isInvoked = false)
    (hperm : upper'.flatten.Perm ((frame :: upper).flatten ++ (rest.moment a).entered)) :
    Clears id ((a :: frame) :: upper) below (rest.moment a :: body) rest mid where
  stack := h.stack
  config := h.config.trans (handles_of_handle hh).unbroken.2
  begins m hm := by
    obtain rfl := Option.some.inj hm
    rfl
  apart := List.forall_mem_cons.2 ⟨hquiet, h.apart⟩
  drained := by
    rw [List.map_cons, List.flatMap_cons]
    refine List.Perm.cons a (h.drained.trans ?_)
    exact (hperm.append_right _).trans (List.append_assoc _ _ _ ▸ .refl _)
  spares := by
    have hscript := rest.handle_script a
    rw [hh, Sum.elim_inl] at hscript
    have hfirst := (rest.moment a).spares
    rw [← hscript] at hfirst
    refine (hfirst.mono ?_).trans (h.spares.mono ?_)
    · rintro id' ⟨m, hm, hcalled⟩
      exact ⟨m, List.mem_cons.2 (.inl (List.mem_singleton.1 hm)), hcalled⟩
    · rintro id' ⟨m, hm, hcalled⟩
      exact ⟨m, List.mem_cons_of_mem _ hm, hcalled⟩

end Clears

/-- If none but fresh activations of a node wait above some frames, the same holds after the next
one of another node is handled. -/
theorem Handles.above_fresh {id : NodeId} {rest next : Drain β} {a : Activation}
    {frame : List Activation} {upper below : List (List Activation)} (h : rest.Handles a next)
    (hs : rest.stack = frame :: upper ++ below)
    (hquiet : a.node = id → (rest.moment a).isInvoked = false)
    (hfresh : ∀ b ∈ (frame :: upper).flatten, b.node = id → b.first = true) :
    ∃ upper', next.stack = upper' ++ below
      ∧ upper'.flatten.Perm ((frame :: upper).flatten ++ (rest.moment a).entered)
      ∧ ∀ b ∈ upper'.flatten, b.node = id → b.first = true := by
  obtain ⟨upper', hs', hperm⟩ := h.above hs
  refine ⟨upper', hs', hperm, fun b hb hnode => ?_⟩
  rcases List.mem_append.1 (hperm.mem_iff.1 hb) with hb | hb
  · exact hfresh b hb hnode
  rcases first_of_entered hb with hfirst | rfl
  · exact hfirst
  · rw [entered_of_not_invoked (hquiet hnode)] at hb
    cases hb

/-- What is above some frames is drained before them. If fresh activations of a node are not to be
called in the meantime and none but fresh ones of it wait there, the node is not called at all. -/
theorem drained_above {id : NodeId} {ending : Except Halt Report} {after : Director β}
    {below : List (List Activation)} {fuel : Nat} {drain : Drain β}
    {upper : List (List Activation)} (hs : drain.stack = upper ++ below)
    (hrun : drain.run fuel = some (ending, after)) (hends : Ends id ending (drain.history fuel))
    (honly : ∀ m ∈ runOf id (drain.history fuel), m.activation.node = id → m.isInvoked = true →
      m.activation.first = false)
    (hfresh : ∀ a ∈ upper.flatten, a.node = id → a.first = true) :
    ∃ (body : List (Moment β)) (mid : Drain β) (left : Nat),
      drain.history fuel = body ++ mid.history left ∧ drain.run fuel = mid.run left
        ∧ Clears id upper below body drain mid := by
  induction fuel generalizing drain upper with
  | zero => simp [run] at hrun
  | succ fuel ih =>
  rcases upper with _ | ⟨_ | ⟨a, frame⟩, upper⟩
  · exact ⟨[], drain, fuel + 1, rfl, rfl, .none hs⟩
  · obtain ⟨hhistory, hrun'⟩ := close_first hs fuel
    rw [hhistory] at hends honly ⊢
    rw [hrun'] at hrun ⊢
    rw [List.flatten_cons, List.nil_append] at hfresh
    obtain ⟨body, mid, left, hbody, hleft, hclears⟩ := ih rfl hrun hends honly hfresh
    exact ⟨body, mid, left, hbody, hleft, { hclears with }⟩
  let rest : Drain β := { drain with stack := frame :: upper ++ below }
  have hn : drain.next? = some (a, rest) := by
    rw [next?, hs]
    rfl
  have hquiet : a.node = id → (rest.moment a).isInvoked = false := by
    intro hnode
    have hmem : rest.moment a ∈ runOf id (drain.history (fuel + 1)) := by
      rw [history, hn]
      exact List.mem_cons_self
    refine Bool.eq_false_iff.2 fun hinvoked => ?_
    have hresumed : a.first = false := honly _ hmem hnode hinvoked
    rw [hfresh a List.mem_cons_self hnode] at hresumed
    cases hresumed
  have hopen : ¬ (rest.moment a).Closes id := by
    rintro ⟨hinvoked, hnode, -⟩
    rw [hquiet hnode] at hinvoked
    cases hinvoked
  rcases hh : rest.handle a with next | halted
  · obtain ⟨hhistory, hrun'⟩ := handle_first hn hh fuel
    rw [hhistory] at hends honly ⊢
    rw [hrun'] at hrun ⊢
    rw [runOf_of_not_closes hopen] at honly
    obtain ⟨upper', hs', hperm, hfresh'⟩ := (handles_of_handle hh).above_fresh rfl hquiet
      fun b hb => hfresh b (List.mem_cons_of_mem _ hb)
    obtain ⟨body, mid, left, hbody, hleft, hclears⟩ := ih hs' hrun (hends.tail hopen)
      (fun m hm => honly m (List.mem_cons_of_mem _ hm)) hfresh'
    exact ⟨rest.moment a :: body, mid, left, by rw [hbody, List.cons_append], hleft,
      { hclears.handle hh hquiet hperm with }⟩
  · -- A tick that breaks here would cut the run short.
    obtain ⟨hhistory, hrun'⟩ := halt_first hn hh fuel
    obtain ⟨halt, hhalt⟩ := halt_of_handle hh
    obtain rfl := Option.some.inj (hrun'.symm.trans hrun)
    rw [hhistory] at hends
    obtain ⟨report, hok⟩ | ⟨m, hm, -⟩ := hends.tail hopen
    · rw [hok] at hhalt
      cases hhalt
    · cases hm

end Drain

end ticks

end FlowScript
