import FlowScript.Proofs.Moment

/-!
# The history of a tick

The history of a tick lists, in order, the moments at which its activations are handled. Handling
one activation either discards it, makes a call that fails or makes a call that succeeds
(`handles_of_handle`), and a fact about every way in which a tick can go is shown by following its
steps (`run_induction`).
-/

namespace FlowScript

variable {β : Type}

namespace Moment

variable [Behavior β]

/-- What the call of an activation puts into the next wave: the activation resumed, if the node
wants to be called again; what it fired, unless it ran in a frame or opened one; and a fresh start
of each event that it found. -/
def carried (m : Moment β) : List Activation :=
  match m.call? with
  | some ⟨.ok latent, turn, found⟩ =>
    (if latent then [m.activation.resumed] else [])
      ++ (if m.depth = 0 ∧ turn.frames = [] then turn.fired else [])
      ++ found.map fun id => { node := id, input := none, first := true }
  | _ => []

/-- What the call of an activation adds to the frames of this tick: the frames that it opened, and
what it fired if it opened one or ran in one. -/
def entered (m : Moment β) : List Activation :=
  match m.call? with
  | some ⟨.ok _, turn, _⟩ =>
    turn.frames.flatten ++ if m.depth = 0 ∧ turn.frames = [] then [] else turn.fired
  | _ => []

theorem carried_of_ok {m : Moment β} {call : Call β} {latent : Bool} (hc : m.call? = some call)
    (hv : call.verdict = .ok latent) : m.carried =
      (if latent then [m.activation.resumed] else [])
        ++ (if m.depth = 0 ∧ call.turn.frames = [] then call.turn.fired else [])
        ++ call.found.map fun id => { node := id, input := none, first := true } := by
  obtain ⟨verdict, turn, found⟩ := call
  subst hv
  simp only [carried, hc]

theorem entered_of_ok {m : Moment β} {call : Call β} {latent : Bool} (hc : m.call? = some call)
    (hv : call.verdict = .ok latent) : m.entered =
      call.turn.frames.flatten
        ++ if m.depth = 0 ∧ call.turn.frames = [] then [] else call.turn.fired := by
  obtain ⟨verdict, turn, found⟩ := call
  subst hv
  simp only [entered, hc]

theorem scheduled_of_error {m : Moment β} {call : Call β} {error : NodeError}
    (hc : m.call? = some call) (he : call.error? = some error) :
    m.carried = [] ∧ m.entered = [] := by
  obtain ⟨verdict, turn, found⟩ := call
  cases verdict with
  | ok latent => simp [Call.error?] at he
  | error stop => simp only [carried, entered, hc, and_self]

theorem scheduled_of_target?_none {m : Moment β} (h : m.target? = none) :
    m.carried = [] ∧ m.entered = [] := by
  simp only [carried, entered, call?, h, Option.bind_none, and_self]

end Moment

namespace Drain

/-- The activations that wait in this tick: those of the open frames and then the wave. -/
def waiting (drain : Drain β) : List Activation := drain.stack.flatten ++ drain.wave

/-- The activation that the next step handles, and the tick without it. -/
def next? (drain : Drain β) : Option (Activation × Drain β) :=
  match drain.stack, drain.wave with
  | [] :: _, _ => none
  | (activation :: frame) :: stack, _ => some (activation, { drain with stack := frame :: stack })
  | [], activation :: wave => some (activation, { drain with wave := wave })
  | [], [] => none

/-- The moment at which an activation that was taken out is handled. -/
def moment (drain : Drain β) (activation : Activation) : Moment β where
  director := drain.director
  order := drain.report.invoked
  depth := drain.stack.length
  activation := activation

/-- The report with the number of open frames noted. -/
def deepened (drain : Drain β) : Report :=
  { drain.report with maxDepth := max drain.report.maxDepth drain.stack.length }

/-- The tick after a discarded activation. -/
def discard (drain : Drain β) : Drain β :=
  { drain with report := { drain.deepened with discarded := drain.report.discarded + 1 } }

/-- The tick after a call that failed. -/
def passOver (drain : Drain β) (director : Director β) : Drain β :=
  { drain with
    director := director
    report := { drain.deepened with
      invoked := drain.report.invoked + 1, failed := drain.report.failed + 1 } }

/-- The tick after a call that succeeded, before what it scheduled is taken over. -/
def accept (drain : Drain β) (director : Director β) (latent : Bool) : Drain β :=
  { drain with
    director := director
    report := { drain.deepened with
      invoked := drain.report.invoked + 1
      latent := if latent then drain.report.latent + 1 else drain.report.latent } }

/-! ## Taking over what a call scheduled -/

/-- What a call resumes, fires and signals joins the next wave, unless it fires into a frame. The
frames that it opened come first, and a frame that is exhausted by then is closed. -/
theorem schedule_eq (drain : Drain β) (a : Activation) (effects : Effects) :
    drain.schedule a effects =
      { drain with
        director := { drain.director with
          nextWave := drain.director.nextWave
            ++ ((if effects.latent then [a.resumed] else [])
              ++ (if drain.stack.length = 0 ∧ effects.frames = [] then effects.fired else [])
              ++ effects.signalled) }
        stack :=
          match effects.frames, drain.stack with
          | [], [] => []
          | [], frame :: stack => (frame ++ effects.fired) :: stack
          | frames, [] :: stack =>
            frames ++ (if effects.fired = [] then [] else [effects.fired]) ++ stack
          | frames, stack =>
            frames ++ (if effects.fired = [] then [] else [effects.fired]) ++ stack } := by
  obtain ⟨director, report, wave, stack⟩ := drain
  unfold schedule
  rcases effects.latent <;> rcases effects.frames with _ | ⟨frame, frames⟩ <;>
    rcases stack with _ | ⟨_ | ⟨b, top⟩, stack⟩ <;> simp [defer]

theorem schedule_report (drain : Drain β) (a : Activation) (effects : Effects) :
    (drain.schedule a effects).report = drain.report := by
  rw [schedule_eq]

theorem schedule_director (drain : Drain β) (a : Activation) (effects : Effects) :
    (drain.schedule a effects).director =
      { drain.director with
        nextWave := drain.director.nextWave
          ++ ((if effects.latent then [a.resumed] else [])
            ++ (if drain.stack.length = 0 ∧ effects.frames = [] then effects.fired else [])
            ++ effects.signalled) } := by
  rw [schedule_eq]

theorem schedule_wave (drain : Drain β) (a : Activation) (effects : Effects) :
    (drain.schedule a effects).wave = drain.wave := by
  rw [schedule_eq]

theorem schedule_stack (drain : Drain β) (a : Activation) (effects : Effects) :
    (drain.schedule a effects).stack =
      match effects.frames, drain.stack with
      | [], [] => []
      | [], frame :: stack => (frame ++ effects.fired) :: stack
      | frames, [] :: stack =>
        frames ++ (if effects.fired = [] then [] else [effects.fired]) ++ stack
      | frames, stack =>
        frames ++ (if effects.fired = [] then [] else [effects.fired]) ++ stack := by
  rw [schedule_eq]

/-- Nothing that a call scheduled is lost or doubled: what does not go to the next wave waits in
the frames, and closing an exhausted frame loses nothing. -/
theorem schedule_waiting (drain : Drain β) (a : Activation) (effects : Effects) :
    (drain.schedule a effects).waiting.Perm
      (drain.waiting ++ (effects.frames.flatten
        ++ if drain.stack.length = 0 ∧ effects.frames = [] then [] else effects.fired)) := by
  have hlast : (if effects.fired = [] then [] else [effects.fired]).flatten = effects.fired := by
    split <;> simp_all
  -- The order does not matter, so each activation is counted on both sides.
  rw [List.perm_iff_count]
  intro b
  unfold waiting
  rw [schedule_stack, schedule_wave]
  rcases effects.frames with _ | ⟨frame, frames⟩ <;> rcases drain.stack with _ | ⟨top, stack⟩
  · simp
  · simp only [List.flatten_cons, List.flatten_nil, List.length_cons, List.count_append,
      List.nil_append, Nat.add_one_ne_zero, false_and, ↓reduceIte]
    omega
  · simp only [List.flatten_append, List.count_append, hlast, List.flatten_nil, List.length_nil,
      List.nil_append, List.append_nil, reduceCtorEq, and_false, ↓reduceIte]
    omega
  · rcases top with _ | ⟨c, top⟩ <;>
      simp only [List.flatten_append, List.count_append, hlast, List.flatten_cons,
        List.nil_append, reduceCtorEq, and_false, ↓reduceIte] <;> omega

/-! ## Steps -/

theorem next?_eq_some {drain rest : Drain β} {a : Activation} (h : drain.next? = some (a, rest)) :
    rest.director = drain.director ∧ rest.report = drain.report
      ∧ drain.waiting = a :: rest.waiting := by
  unfold next? at h
  split at h <;> simp only [reduceCtorEq, Option.some.injEq, Prod.mk.injEq] at h
  all_goals
    obtain ⟨rfl, rfl⟩ := h
    refine ⟨rfl, rfl, ?_⟩
    simp_all [waiting]

variable [Behavior β]

theorem step_of_next?_some {drain rest : Drain β} {a : Activation}
    (h : drain.next? = some (a, rest)) : drain.step = rest.handle a := by
  unfold next? at h
  unfold step
  split at h <;> simp only [reduceCtorEq, Option.some.injEq, Prod.mk.injEq] at h
  all_goals
    obtain ⟨rfl, rfl⟩ := h
    simp_all

/-- Without an activation to take, an exhausted frame is closed or the tick is over. -/
theorem step_of_next?_none {drain : Drain β} (h : drain.next? = none) :
    (∃ stack, drain.stack = [] :: stack ∧ drain.step = .inl { drain with stack := stack })
      ∨ drain.stack = [] ∧ drain.wave = [] ∧ drain.step = .inr drain.finish := by
  unfold next? at h
  unfold step
  split at h <;> simp_all

/-- What handling an activation makes of a tick that goes on. -/
inductive Handles (drain : Drain β) (a : Activation) : Drain β → Prop where
  | discarded (target : (drain.moment a).target? = none) : Handles drain a drain.discard
  | failed (node : Node β) (call : Call β) (script : Script β) (error : NodeError)
      (target : (drain.moment a).target? = some node) (made : (drain.moment a).call? = some call)
      (verdict : call.error? = some error)
      (fate : (drain.moment a).outcome.1 = .failed) :
      Handles drain a (drain.passOver ((drain.moment a).after node call script))
  | completed (node : Node β) (call : Call β) (script : Script β) (latent : Bool)
      (target : (drain.moment a).target? = some node) (made : (drain.moment a).call? = some call)
      (verdict : call.verdict = .ok latent)
      (after : (drain.moment a).outcome.2 = (drain.moment a).after node call script)
      (spent : (drain.moment a).outcome.2.Spent a.node) :
      Handles drain a
        ((drain.accept ((drain.moment a).after node call script) latent).schedule a
          (call.effects latent))

theorem handle_eq (drain : Drain β) (a : Activation) : drain.handle a =
    match (drain.moment a).outcome with
    | (.discarded, director) => .inl { drain.discard with director := director }
    | (.faulted reason, director) => .inr (.error (.faulted reason), director)
    | (.unwound text, director) => .inr (.error (.unwound text), director)
    | (.failed, director) => .inl (drain.passOver director)
    | (.completed effects, director) =>
      .inl ((drain.accept director effects.latent).schedule a effects) := by
  unfold handle
  simp only [moment, Moment.outcome]
  split <;> simp_all [discard, passOver, accept, deepened]

theorem handles_of_handle {drain next : Drain β} {a : Activation}
    (h : drain.handle a = .inl next) : drain.Handles a next := by
  rw [handle_eq] at h
  cases (drain.moment a).handled with
  | discarded target outcome =>
    rw [outcome] at h
    cases h
    exact .discarded target
  | halted halt =>
    generalize (drain.moment a).outcome = outcome at h halt
    obtain ⟨_ | _ | _ | _ | _, director⟩ := outcome <;>
      first | exact False.elim halt | cases h
  | failed node call script error target made verdict fate after =>
    have ho : (drain.moment a).outcome = (.failed, (drain.moment a).after node call script) :=
      Prod.ext fate after
    rw [ho] at h
    cases h
    exact .failed node call script error target made verdict fate
  | completed node call script latent target made verdict fate after spent =>
    have ho : (drain.moment a).outcome
        = (.completed (call.effects latent), (drain.moment a).after node call script) :=
      Prod.ext fate after
    rw [ho] at h
    cases h
    exact .completed node call script latent target made verdict after spent

theorem halt_of_handle {drain : Drain β} {a : Activation} {ending : Ending β}
    (h : drain.handle a = .inr ending) : ∃ halt, ending.1 = .error halt := by
  rw [handle_eq] at h
  split at h <;> cases h
  · exact ⟨_, rfl⟩
  · exact ⟨_, rfl⟩

theorem goes_of_handle {drain next : Drain β} {a : Activation} (h : drain.handle a = .inl next) :
    ¬ (drain.moment a).outcome.1.IsHalt := by
  intro hhalt
  rw [handle_eq] at h
  generalize (drain.moment a).outcome = outcome at h hhalt
  obtain ⟨_ | _ | _ | _ | _, director⟩ := outcome <;> first | exact hhalt.elim | cases h

/-- A tick that ends early ends with what became of the activation. -/
theorem fate_of_handle {drain : Drain β} {a : Activation} {ending : Ending β}
    (h : drain.handle a = .inr ending) :
    (∃ reason, (drain.moment a).outcome.1 = .faulted reason)
      ∨ ∃ text, (drain.moment a).outcome.1 = .unwound text ∧ ending.1 = .error (.unwound text) := by
  rw [handle_eq] at h
  generalize (drain.moment a).outcome = outcome at h ⊢
  obtain ⟨_ | reason | text | _ | _, director⟩ := outcome <;> cases h
  · exact .inl ⟨reason, rfl⟩
  · exact .inr ⟨text, rfl, rfl⟩

/-! ## Runs -/

/-- The moments of the first steps of a tick, at most `fuel` steps. -/
def history : Nat → Drain β → List (Moment β)
  | 0, _ => []
  | fuel + 1, drain =>
    (drain.next?.map fun taken => taken.2.moment taken.1).toList ++
      match drain.step with
      | .inl next => history fuel next
      | .inr _ => []

/-- A fact about every tick that ends without a halt: it holds of a tick that is over, and each
step hands it from the rest of the tick to the whole. -/
theorem run_induction {motive : Drain β → List (Moment β) → Report → Director β → Prop}
    (finish : ∀ drain : Drain β, drain.stack = [] → drain.wave = [] → ∀ report after,
      drain.finish = (.ok report, after) → motive drain [] report after)
    (close : ∀ (drain : Drain β) stack history report after, drain.stack = [] :: stack →
      motive { drain with stack := stack } history report after →
      motive drain history report after)
    (handle : ∀ (drain rest next : Drain β) a history report after,
      drain.next? = some (a, rest) → rest.Handles a next →
      motive next history report after →
      motive drain (rest.moment a :: history) report after) :
    ∀ (fuel : Nat) (drain : Drain β) (report : Report) (after : Director β),
      drain.run fuel = some (.ok report, after) → motive drain (drain.history fuel) report after
  | 0, drain, report, after, h => by simp [run] at h
  | fuel + 1, drain, report, after, h => by
    have ih := run_induction finish close handle fuel
    rw [run] at h
    rw [history]
    rcases hn : drain.next? with _ | ⟨a, rest⟩
    · rw [Option.map_none, Option.toList_none, List.nil_append]
      rcases step_of_next?_none hn with ⟨stack, hs, hstep⟩ | ⟨hs, hw, hstep⟩ <;>
        rw [hstep] at h ⊢
      · exact close drain stack _ _ _ hs (ih _ _ _ h)
      · exact finish drain hs hw _ _ (Option.some.inj h)
    · rw [Option.map_some, Option.toList_some, List.singleton_append]
      rw [step_of_next?_some hn] at h ⊢
      rcases hh : rest.handle a with next | ending <;> rw [hh] at h
      · exact handle drain rest next a _ _ _ hn (handles_of_handle hh) (ih _ _ _ h)
      · obtain ⟨halt, he⟩ := halt_of_handle hh
        rw [Option.some.inj h] at he
        cases he

/-- What each step keeps holds whenever an activation is taken out, and still holds at the step that
ends the tick. The activation of that step, if it takes one, is in the history as well. -/
theorem invariant {P : Drain β → Prop}
    (kept : ∀ drain next : Drain β, P drain → drain.step = .inl next → P next) :
    ∀ (fuel : Nat) (drain : Drain β), P drain →
      (∀ m ∈ drain.history fuel, ∃ (before : Drain β) (a : Activation) (rest : Drain β),
        P before ∧ before.next? = some (a, rest) ∧ m = rest.moment a)
      ∧ ∀ ending, drain.run fuel = some ending → ∃ last : Drain β, P last
        ∧ last.step = .inr ending
        ∧ ∀ a rest, last.next? = some (a, rest) → rest.moment a ∈ drain.history fuel
  | 0, drain, _ => by simp [run, history]
  | fuel + 1, drain, hp => by
    have hhead : ∀ a rest, drain.next? = some (a, rest) → rest.moment a ∈
        drain.history (fuel + 1) := by
      intro a rest hn
      rw [history, hn]
      exact List.mem_append_left _ List.mem_cons_self
    have htaken : ∀ m ∈ (drain.next?.map fun taken => taken.2.moment taken.1).toList,
        ∃ (before : Drain β) (a : Activation) (rest : Drain β),
          P before ∧ before.next? = some (a, rest) ∧ m = rest.moment a := by
      intro m hm
      obtain ⟨⟨a, rest⟩, hn, rfl⟩ := Option.map_eq_some_iff.1 (Option.mem_toList.1 hm)
      exact ⟨drain, a, rest, hp, hn, rfl⟩
    rcases hs : drain.step with next | ending
    · obtain ⟨hhistory, hrun⟩ := invariant kept fuel next (kept drain next hp hs)
      rw [run, history, hs]
      refine ⟨fun m hm => (List.mem_append.1 hm).elim (htaken m) (hhistory m), ?_⟩
      intro ending hend
      obtain ⟨last, hlast, hstep, hmem⟩ := hrun ending hend
      exact ⟨last, hlast, hstep, fun a rest hn => List.mem_append_right _ (hmem a rest hn)⟩
    · rw [run, hs]
      refine ⟨fun m hm => ?_, fun ending' hend => ?_⟩
      · rw [history, hs, List.append_nil] at hm
        exact htaken m hm
      · obtain rfl := Option.some.inj hend
        exact ⟨drain, hp, hs, hhead⟩

end Drain

namespace Director

variable [Behavior β]

/-- The moments of a tick that takes at most `fuel` steps. A broken director has none. -/
def history (fuel : Nat) (sim real : Float) (director : Director β) : List (Moment β) :=
  match director.fault with
  | some _ => []
  | none => (director.begin sim real).history fuel

theorem history_of_fault {director : Director β} (h : director.fault = none) (fuel : Nat)
    (sim real : Float) :
    director.history fuel sim real = (director.begin sim real).history fuel := by
  unfold history
  rw [h]

/-- A tick that ends well was begun by a director that is not broken, and was run to its end. -/
theorem run_of_update {director after : Director β} {fuel : Nat} {sim real : Float}
    {report : Report} (h : director.update fuel sim real = some (.ok report, after)) :
    (director.begin sim real).run fuel = some (.ok report, after)
      ∧ director.history fuel sim real = (director.begin sim real).history fuel := by
  unfold update at h
  split at h
  · simp at h
  · rename_i hf
    exact ⟨h, history_of_fault hf fuel sim real⟩

end Director

end FlowScript
