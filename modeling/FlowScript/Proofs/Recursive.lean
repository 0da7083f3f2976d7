import FlowScript.Proofs.Flat
import FlowScript.Proofs.History

/-!
# The loop as a recursion

A tick can be told without open frames, as a function that drains one list of activations and
calls itself for each frame that a call opens. The loop follows this recursion (`follows_drain`):
the list that the recursion is at waits on top of the loop's frames, and a frame that is exhausted
may be closed before the recursion comes back to it. So both end every tick alike, but for the
depths that only the loop can tell.
-/

namespace FlowScript

variable {β : Type}

/-- A tick in progress without its queues: the director, and the report so far. -/
structure Course (β : Type) where
  director : Director β
  report : Report

namespace Course

/-- The course without depths. -/
def flat (course : Course β) : Course β := ⟨course.director.flat, course.report.flat⟩

/-- Adds activations to the next wave. -/
def defer (course : Course β) (activations : List Activation) : Course β :=
  { course with
    director := { course.director with nextWave := course.director.nextWave ++ activations } }

/-- Ends the tick. -/
def finish (course : Course β) : Ending β :=
  let report := { course.report with carried := course.director.nextWave.length }
  (.ok report, { course.director with phase := .idle }.observe (.tickEnded report))

theorem flat_defer (course : Course β) (activations : List Activation) :
    (course.defer activations).flat = course.flat.defer activations := rfl

theorem flat_finish {course course' : Course β} (h : course.flat = course'.flat) :
    course.finish.flat = course'.finish.flat := by
  have hf : ∀ c : Course β, c.finish.flat = c.flat.finish := by
    intro c
    simp [finish, flat, Ending.flat, Director.flat, Director.observe, Observation.flat,
      Report.flat, Except.map]
  rw [hf, hf, h]

variable [Behavior β]

/-- Calls what an activation names. The answer holds what the call scheduled, unless it failed or
the activation was discarded. -/
def call (course : Course β) (a : Activation) :
    ExceptT (Ending β) Option (Option Effects × Course β) :=
  match course.director.invoke course.report.invoked 0 a with
  | (.discarded, director) =>
    return (none,
      { director := director
        report := { course.report with discarded := course.report.discarded + 1 } })
  | (.faulted reason, director) => throw (.error (.faulted reason), director)
  | (.unwound text, director) => throw (.error (.unwound text), director)
  | (.failed, director) =>
    return (none,
      { director := director
        report := { course.report with
          invoked := course.report.invoked + 1, failed := course.report.failed + 1 } })
  | (.completed effects, director) =>
    return (some effects,
      { director := director
        report := { course.report with
          invoked := course.report.invoked + 1
          latent := if effects.latent then course.report.latent + 1 else course.report.latent } })

/-- Drains a list, which is either the outer wave or a frame. What a call fires joins the end of
the list, or the next wave if the list is the outer one. If the call opened frames, they are drained
one after another first, then what it fired as one more list, and only then the list goes on.
`none` when calls are nested or follow each other more than `fuel` deep. -/
def drain : Nat → Bool → List Activation → Course β → ExceptT (Ending β) Option (Course β)
  | _, _, [], course => return course
  | 0, _, _ :: _, _ => ExceptT.mk none
  | fuel + 1, outer, a :: rest, course => do
    match ← course.call a with
    | (none, called) => drain fuel outer rest called
    | (some effects, called) =>
      let resumed := if effects.latent then [a.resumed] else []
      match effects.frames, outer with
      | [], true =>
        drain fuel true rest (called.defer (resumed ++ effects.fired ++ effects.signalled))
      | [], false =>
        drain fuel false (rest ++ effects.fired) (called.defer (resumed ++ effects.signalled))
      | frames, outer => do
        let nested ← (frames ++ [effects.fired]).foldlM
          (fun course list => drain fuel false list course)
          (called.defer (resumed ++ effects.signalled))
        drain fuel outer rest nested

/-- The ending that draining the outer wave comes to. -/
def ending? (result : ExceptT (Ending β) Option (Course β)) : Option (Ending β) :=
  match result.run with
  | none => none
  | some (.error ending) => some ending
  | some (.ok course) => some course.finish

end Course

/-- Steps the script by one tick like `Director.update`, but by recursion. -/
def Director.updateRecursively [Behavior β] (fuel : Nat) (sim real : Float)
    (director : Director β) : Option (Ending β) :=
  match director.fault with
  | some reason => some (.error (.faulted reason), director)
  | none =>
    let start := director.begin sim real
    Course.ending? (Course.drain fuel true start.wave ⟨start.director, start.report⟩)

namespace Course

variable [Behavior β]

theorem drain_nil (fuel : Nat) (outer : Bool) (course : Course β) :
    drain fuel outer [] course = pure course := by
  cases fuel <;> rfl

theorem drain_of_throw {course : Course β} {a : Activation} {ending : Ending β}
    (h : course.call a = throw ending) (fuel : Nat) (outer : Bool) (rest : List Activation) :
    drain (fuel + 1) outer (a :: rest) course = throw ending := by
  rw [drain, h]
  rfl

theorem drain_of_none {course called : Course β} {a : Activation}
    (h : course.call a = pure (none, called)) (fuel : Nat) (outer : Bool)
    (rest : List Activation) :
    drain (fuel + 1) outer (a :: rest) course = drain fuel outer rest called := by
  rw [drain, h, pure_bind]

/-- A call that opens no frame carries on with the list, or with what it fired behind the list. -/
theorem drain_of_flat {course called : Course β} {a : Activation} {effects : Effects}
    (h : course.call a = pure (some effects, called)) (hf : effects.frames = []) (fuel : Nat)
    (outer : Bool) (rest : List Activation) :
    drain (fuel + 1) outer (a :: rest) course =
      drain fuel outer (rest ++ if outer then [] else effects.fired)
        (called.defer ((if effects.latent then [a.resumed] else [])
          ++ (if outer then effects.fired else []) ++ effects.signalled)) := by
  rw [drain, h, pure_bind]
  cases outer <;> simp [hf]

theorem drain_of_frames {course called : Course β} {a : Activation} {effects : Effects}
    (h : course.call a = pure (some effects, called)) (hf : effects.frames ≠ []) (fuel : Nat)
    (outer : Bool) (rest : List Activation) :
    drain (fuel + 1) outer (a :: rest) course =
      ((effects.frames ++ if effects.fired = [] then [] else [effects.fired]).foldlM
        (fun course list => drain fuel false list course)
        (called.defer ((if effects.latent then [a.resumed] else []) ++ effects.signalled)))
      >>= drain fuel outer rest := by
  rw [drain, h, pure_bind]
  obtain ⟨frame, frames, hframes⟩ := List.exists_cons_of_ne_nil hf
  simp only [hframes]
  by_cases hn : effects.fired = []
  · simp [hn, drain_nil]
  · rw [if_neg hn]

end Course

/-! ## The loop at a place of the recursion -/

/-- Where the list that the recursion is at waits in the loop: in the wave, or in a frame on top of
others. -/
inductive Place where
  | wave
  | frame (below : List (List Activation)) (wave : List Activation)

/-- Whether the list is the outer wave. -/
def Place.outer : Place → Bool
  | .wave => true
  | .frame _ _ => false

/-- The open frames while the first activation of a list is out for its call. -/
def Place.frames (rest : List Activation) : Place → List (List Activation)
  | .wave => []
  | .frame below _ => rest :: below

theorem Place.length_frames (rest : List Activation) (place : Place) :
    (place.frames rest).length = 0 ↔ place.outer = true := by
  cases place <;> simp [frames, outer]

/-- The frames below those that a call opens: an exhausted one is closed for them. -/
def Place.below (rest : List Activation) : Place → List (List Activation)
  | .wave => []
  | .frame below _ => if rest = [] then below else rest :: below

/-- The wave while the first activation of a list is out for its call. -/
def Place.queue (rest : List Activation) : Place → List Activation
  | .wave => rest
  | .frame _ later => later

namespace Drain

/-- What the loop shares with the recursion. -/
def course (drain : Drain β) : Course β := ⟨drain.director, drain.report⟩

/-- The list waits at the place. An exhausted frame may have been closed. -/
def At (drain : Drain β) (list : List Activation) : Place → Prop
  | .wave => drain.stack = [] ∧ drain.wave = list
  | .frame below wave =>
    (drain.stack = list :: below ∨ list = [] ∧ drain.stack = below) ∧ drain.wave = wave

/-- Nothing waits at the place any more. -/
def Past (drain : Drain β) : Place → Prop
  | .wave => drain.stack = [] ∧ drain.wave = []
  | .frame below wave => drain.stack = below ∧ drain.wave = wave

theorem at_of_frames {drain : Drain β} {place : Place} {rest : List Activation}
    (hs : drain.stack = place.frames rest) (hw : drain.wave = place.queue rest) :
    drain.At rest place := by
  cases place with
  | wave => exact ⟨hs, hw⟩
  | frame below wave => exact ⟨.inl hs, hw⟩

/-- Once the frames that a call opened are drained, the list goes on. -/
theorem at_of_past_below {drain : Drain β} {place : Place} {rest : List Activation}
    (h : drain.Past (.frame (place.below rest) (place.queue rest))) : drain.At rest place := by
  obtain ⟨hs, hw⟩ := h
  cases place with
  | wave => exact ⟨hs, hw⟩
  | frame below wave =>
    by_cases hr : rest = []
    · rw [Place.below, if_pos hr] at hs
      exact ⟨.inr ⟨hr, hs⟩, hw⟩
    · rw [Place.below, if_neg hr] at hs
      exact ⟨.inl hs, hw⟩

theorem schedule_stack_of_frames {drain : Drain β} {place : Place} {rest : List Activation}
    (hs : drain.stack = place.frames rest) (a : Activation) {effects : Effects}
    (hf : effects.frames ≠ []) :
    (drain.schedule a effects).stack =
      (effects.frames ++ if effects.fired = [] then [] else [effects.fired])
        ++ place.below rest := by
  rw [schedule_stack, hs]
  obtain ⟨frame, frames, hframes⟩ := List.exists_cons_of_ne_nil hf
  rw [hframes]
  rcases place with _ | ⟨below, wave⟩
  · rfl
  · rcases rest with _ | ⟨b, rest⟩ <;> rfl

theorem at_of_schedule {drain : Drain β} {place : Place} {rest : List Activation}
    (hs : drain.stack = place.frames rest) (hw : drain.wave = place.queue rest) (a : Activation)
    {effects : Effects} (hf : effects.frames = []) :
    (drain.schedule a effects).At (rest ++ if place.outer then [] else effects.fired) place := by
  have hstack := schedule_stack drain a effects
  rw [hs, hf] at hstack
  have hwave := (schedule_wave drain a effects).trans hw
  cases place with
  | wave => exact ⟨hstack, hwave.trans (List.append_nil rest).symm⟩
  | frame below wave => exact ⟨.inl hstack, hwave⟩

theorem schedule_course (drain : Drain β) (a : Activation) (effects : Effects) :
    (drain.schedule a effects).course = drain.course.defer
      ((if effects.latent then [a.resumed] else [])
        ++ (if drain.stack.length = 0 ∧ effects.frames = [] then effects.fired else [])
        ++ effects.signalled) := by
  rw [Drain.course, schedule_director, schedule_report]
  rfl

variable [Behavior β]

/-- The loop comes from one state to another. -/
def Leads (drain next : Drain β) : Prop := ∃ steps, ∀ fuel, drain.run (steps + fuel) = next.run fuel

theorem Leads.refl (drain : Drain β) : drain.Leads drain :=
  ⟨0, fun fuel => by rw [Nat.zero_add]⟩

theorem Leads.trans {drain next last : Drain β} (h : drain.Leads next) (h' : next.Leads last) :
    drain.Leads last := by
  obtain ⟨steps, h⟩ := h
  obtain ⟨steps', h'⟩ := h'
  refine ⟨steps + steps', fun fuel => ?_⟩
  rw [Nat.add_assoc, h, h']

theorem Leads.of_step {drain next : Drain β} (h : drain.step = .inl next) : drain.Leads next := by
  refine ⟨1, fun fuel => ?_⟩
  rw [Nat.add_comm, run, h]

theorem run_add {ending : Ending β} : ∀ (fuel more : Nat) {drain : Drain β},
    drain.run fuel = some ending → drain.run (fuel + more) = some ending
  | 0, more, drain, h => by simp [run] at h
  | fuel + 1, more, drain, h => by
    rw [Nat.add_right_comm, run]
    rw [run] at h
    split at h <;> rename_i hs
    · exact run_add fuel more h
    · exact h

theorem run_unique {drain : Drain β} {fuel fuel' : Nat} {ending ending' : Ending β}
    (h : drain.run fuel = some ending) (h' : drain.run fuel' = some ending') :
    ending = ending' := by
  have h := run_add fuel fuel' h
  rw [Nat.add_comm, run_add fuel' fuel h'] at h
  exact (Option.some.inj h).symm

/-- The loop follows the recursion to its result. When the recursion does not come to a result with
some fuel, the loop does not come to its end in as many steps. -/
def Follows (drain : Drain β) (fuel : Nat) (place : Place)
    (result : ExceptT (Ending β) Option (Course β)) : Prop :=
  match result.run with
  | none => drain.run fuel = none
  | some (.error ending) =>
    ∃ steps ending', drain.run steps = some ending' ∧ ending'.flat = ending.flat
  | some (.ok course) =>
    ∃ next, drain.Leads next ∧ next.Past place ∧ next.course.flat = course.flat

namespace Follows

variable {drain next : Drain β} {fuel : Nat} {place : Place}

theorem of_step {result : ExceptT (Ending β) Option (Course β)} (h : drain.step = .inl next)
    (hf : next.Follows fuel place result) : drain.Follows (fuel + 1) place result := by
  rcases result with _ | ending | course
  · rw [Follows, run, h]
    exact hf
  · obtain ⟨steps, ending', hrun, he⟩ := hf
    refine ⟨steps + 1, ending', ?_, he⟩
    rw [run, h]
    exact hrun
  · obtain ⟨last, hl, hp⟩ := hf
    exact ⟨last, (Leads.of_step h).trans hl, hp⟩

theorem of_leads {result : ExceptT (Ending β) Option (Course β)} (h : drain.Leads next)
    (hf : next.Follows fuel place result) : drain.Follows fuel place result := by
  obtain ⟨steps, hsteps⟩ := h
  rcases result with _ | ending | course
  · -- The loop cannot end within `fuel` steps: then `next` would end within as many.
    rw [Follows, Option.eq_none_iff_forall_ne_some]
    intro ending he
    have he := run_add fuel steps he
    rw [Nat.add_comm, hsteps, hf] at he
    cases he
  · obtain ⟨steps', ending', hrun, he⟩ := hf
    exact ⟨steps + steps', ending', (hsteps steps').trans hrun, he⟩
  · obtain ⟨last, hl, hp⟩ := hf
    exact ⟨last, Leads.trans ⟨steps, hsteps⟩ hl, hp⟩

/-- What the recursion does one after the other, the loop does one after the other. -/
theorem bind {place' : Place} {first : ExceptT (Ending β) Option (Course β)}
    {then_ : Course β → ExceptT (Ending β) Option (Course β)}
    (h : drain.Follows fuel place first)
    (ht : ∀ (course : Course β) (next : Drain β), next.Past place →
      next.course.flat = course.flat → next.Follows fuel place' (then_ course)) :
    drain.Follows fuel place' (first >>= then_ : ExceptT (Ending β) Option (Course β)) := by
  rcases first with _ | ending | course
  · exact h
  · exact h
  · obtain ⟨next, hl, hp, hc⟩ := h
    exact of_leads hl (ht course next hp hc)

theorem ending?_of_run {result : ExceptT (Ending β) Option (Course β)} {ending : Ending β}
    (h : drain.Follows fuel place result) (hr : drain.run fuel = some ending) :
    ∃ ending', Course.ending? result = some ending' := by
  rcases result with _ | ending' | course
  · rw [show drain.run fuel = none from h] at hr
    cases hr
  · exact ⟨ending', rfl⟩
  · exact ⟨course.finish, rfl⟩

theorem run_of_ending? {result : ExceptT (Ending β) Option (Course β)} {ending : Ending β}
    (h : drain.Follows fuel .wave result) (he : Course.ending? result = some ending) :
    ∃ steps ending', drain.run steps = some ending' ∧ ending'.flat = ending.flat := by
  rcases result with _ | ending' | course
  · cases he
  · cases he
    exact h
  · cases he
    obtain ⟨next, ⟨steps, hsteps⟩, ⟨hs, hw⟩, hc⟩ := h
    refine ⟨steps + 1, next.finish, ?_, Course.flat_finish hc⟩
    rw [hsteps, run, step, hs]
    simp only [hw]

end Follows

/-! ## One call -/

theorem handle_of_call {drain : Drain β} {course : Course β} (h : drain.course.flat = course.flat)
    (a : Activation) :
    (∃ ending ending', course.call a = throw ending ∧ drain.handle a = .inr ending'
        ∧ ending'.flat = ending.flat)
      ∨ ∃ effects? called next, course.call a = pure (effects?, called)
        ∧ drain.handle a = .inl (effects?.elim next (next.schedule a))
        ∧ next.stack = drain.stack ∧ next.wave = drain.wave
        ∧ next.course.flat = called.flat := by
  simp only [Drain.course, Course.flat, Report.flat, Course.mk.injEq, Report.mk.injEq] at h
  obtain ⟨hd, ht, hi, hf, hdis, hl, hca, -⟩ := h
  have ho : (drain.moment a).outcome.map id Director.flat
      = (course.director.invoke course.report.invoked 0 a).map id Director.flat := by
    refine Moment.outcome_congr
      (?_ : _ = Moment.flat ⟨course.director, course.report.invoked, 0, a⟩)
    simp only [Moment.flat, moment, hd, hi]
  rw [handle_eq]
  unfold Course.call
  generalize (drain.moment a).outcome = outcome at ho ⊢
  generalize course.director.invoke course.report.invoked 0 a = outcome' at ho ⊢
  obtain ⟨fate, director⟩ := outcome
  obtain ⟨fate', director'⟩ := outcome'
  simp only [Prod.map_apply, id_eq, Prod.mk.injEq] at ho
  obtain ⟨rfl, ha⟩ := ho
  cases fate with
  | discarded =>
    refine .inr ⟨none, _, _, rfl, rfl, rfl, rfl, ?_⟩
    simp [Drain.course, Course.flat, Report.flat, discard, deepened, *]
  | faulted reason => exact .inl ⟨_, _, rfl, rfl, by simp [Ending.flat, ha, Except.map]⟩
  | unwound text => exact .inl ⟨_, _, rfl, rfl, by simp [Ending.flat, ha, Except.map]⟩
  | failed =>
    refine .inr ⟨none, _, _, rfl, rfl, rfl, rfl, ?_⟩
    simp [Drain.course, Course.flat, Report.flat, deepened, *]
  | completed effects =>
    refine .inr ⟨some effects, _, _, rfl, rfl, rfl, rfl, ?_⟩
    simp [Drain.course, Course.flat, Report.flat, accept, deepened, *]

/-! ## The simulation -/

/-- A list that is drained already is left without handling anything. -/
theorem leads_of_at_nil {drain : Drain β} {place : Place} (h : drain.At [] place) :
    ∃ next, drain.Leads next ∧ next.Past place ∧ next.course = drain.course := by
  rcases place with _ | ⟨below, wave⟩
  · exact ⟨drain, .refl drain, h, rfl⟩
  · obtain ⟨hs | ⟨-, hs⟩, hw⟩ := h
    · have hstep : drain.step = .inl { drain with stack := below } := by
        simp only [step, hs]
      exact ⟨_, .of_step hstep, ⟨rfl, hw⟩, rfl⟩
    · exact ⟨drain, .refl drain, ⟨hs, hw⟩, rfl⟩

theorem step_of_at_cons {drain : Drain β} {place : Place} {a : Activation} {rest : List Activation}
    (h : drain.At (a :: rest) place) :
    ∃ taken : Drain β, drain.step = taken.handle a ∧ taken.stack = place.frames rest
      ∧ taken.wave = place.queue rest ∧ taken.course = drain.course := by
  rcases place with _ | ⟨below, wave⟩
  · obtain ⟨hs, hw⟩ := h
    refine ⟨{ drain with wave := rest }, ?_, hs, rfl, rfl⟩
    simp only [step, hs, hw]
  · obtain ⟨hs | ⟨hn, -⟩, hw⟩ := h
    · refine ⟨{ drain with stack := rest :: below }, ?_, rfl, hw, rfl⟩
      simp only [step, hs]
    · cases hn

/-- If the loop follows the recursion for one list, it follows it for lists on top of each other. -/
theorem follows_each {fuel : Nat} {below : List (List Activation)} {wave : List Activation}
    (ih : ∀ place list (course : Course β) (drain : Drain β), drain.At list place →
      drain.course.flat = course.flat →
      drain.Follows fuel place (Course.drain fuel place.outer list course)) :
    ∀ (lists : List (List Activation)) (course : Course β) (drain : Drain β),
      drain.stack = lists ++ below → drain.wave = wave → drain.course.flat = course.flat →
      drain.Follows fuel (.frame below wave)
        (lists.foldlM (fun course list => Course.drain fuel false list course) course)
  | [], course, drain, hs, hw, hc => ⟨drain, .refl drain, ⟨hs, hw⟩, hc⟩
  | list :: lists, course, drain, hs, hw, hc => by
    rw [List.foldlM_cons]
    have hfirst := ih (.frame (lists ++ below) wave) list course drain ⟨.inl hs, hw⟩ hc
    exact hfirst.bind fun course' next hp hc' =>
      follows_each ih lists course' next hp.1 hp.2 hc'

/-- The loop follows the recursion, wherever the list that is drained waits. -/
theorem follows_drain : ∀ (fuel : Nat) (place : Place) (list : List Activation)
    (course : Course β) (drain : Drain β), drain.At list place → drain.course.flat = course.flat →
      drain.Follows fuel place (Course.drain fuel place.outer list course)
  | fuel, place, [], course, drain, hat, hc => by
    rw [Course.drain_nil]
    obtain ⟨next, hl, hp, hn⟩ := leads_of_at_nil hat
    exact ⟨next, hl, hp, hn ▸ hc⟩
  | 0, _, _ :: _, _, _, _, _ => rfl
  | fuel + 1, place, a :: rest, course, drain, hat, hc => by
    -- The induction is on the fuel, since a call of the recursion goes on both with what it opened
    -- and with the rest. The loop takes one step for the call, and the rest waits at the place.
    have ih := follows_drain fuel
    obtain ⟨taken, hstep, hs, hw, ht⟩ := step_of_at_cons hat
    rw [← ht] at hc
    rcases handle_of_call hc a with ⟨ending, ending', hcall, hh, he⟩
      | ⟨effects?, called, next, hcall, hh, hns, hnw, hn⟩
    · rw [Course.drain_of_throw hcall]
      refine ⟨1, ending', ?_, he⟩
      rw [run, hstep, hh]
    rw [hs] at hns
    rw [hw] at hnw
    rcases effects? with _ | effects
    · rw [Course.drain_of_none hcall]
      exact .of_step (hstep.trans hh) (ih place rest called next (at_of_frames hns hnw) hn)
    rw [Option.elim_some] at hh
    refine .of_step (hstep.trans hh) ?_
    have hsc := schedule_course next a effects
    by_cases hf : effects.frames = []
    · rw [Course.drain_of_flat hcall hf]
      refine ih place _ _ _ (at_of_schedule hns hnw a hf) ?_
      rw [hsc, hns, Course.flat_defer, Course.flat_defer, hn]
      simp only [Place.length_frames, hf, and_true]
    · rw [Course.drain_of_frames hcall hf]
      refine .bind (follows_each ih _ _ _ (schedule_stack_of_frames hns a hf)
        (schedule_wave next a effects) ?_) fun course' last hp hc' => ?_
      · rw [hsc, Course.flat_defer, Course.flat_defer, hn]
        simp only [hf, and_false, ↓reduceIte, List.append_nil]
      · -- If the call was the last of its frame, the loop has closed that frame already.
        exact ih place rest course' last (at_of_past_below (hnw ▸ hp)) hc'

/-- If the loop follows a recursion with any fuel, both end alike. -/
theorem Follows.ending_iff {drain : Drain β} {result : Nat → ExceptT (Ending β) Option (Course β)}
    (h : ∀ fuel, drain.Follows fuel .wave (result fuel)) (ending : Ending β) :
    (∃ fuel, (drain.run fuel).map Ending.flat = some ending)
      ↔ ∃ fuel, (Course.ending? (result fuel)).map Ending.flat = some ending := by
  refine ⟨fun ⟨fuel, hm⟩ => ⟨fuel, ?_⟩, fun ⟨fuel, hm⟩ => ?_⟩
  · obtain ⟨ended, hrun, rfl⟩ := Option.map_eq_some_iff.1 hm
    obtain ⟨recursed, hr⟩ := (h fuel).ending?_of_run hrun
    obtain ⟨steps, ended', hrun', he⟩ := (h fuel).run_of_ending? hr
    refine Option.map_eq_some_iff.2 ⟨recursed, hr, ?_⟩
    rw [← he, run_unique hrun hrun']
  · obtain ⟨recursed, hr, rfl⟩ := Option.map_eq_some_iff.1 hm
    obtain ⟨steps, ended, hrun, he⟩ := (h fuel).run_of_ending? hr
    exact ⟨steps, Option.map_eq_some_iff.2 ⟨ended, hrun, he⟩⟩

/-- A tick in progress goes on as draining its open frames one after another and then the wave. -/
theorem follows_stack (fuel : Nat) (drain : Drain β) :
    drain.Follows fuel .wave
      ((drain.stack.foldlM (fun course list => Course.drain fuel false list course) drain.course)
        >>= Course.drain fuel true drain.wave) := by
  have hframes := follows_each (follows_drain fuel) drain.stack drain.course drain
    (List.append_nil _).symm rfl rfl
  exact hframes.bind fun course next hp hc => follows_drain fuel .wave drain.wave course next hp hc

/-- Whether an exhausted frame is closed at once or later is seen in depths only. -/
theorem ending_of_exhausted (drain : Drain β) (above below : List (List Activation))
    (ending : Ending β) :
    (∃ fuel, (({ drain with stack := above ++ [] :: below } : Drain β).run fuel).map Ending.flat
        = some ending)
      ↔ ∃ fuel, (({ drain with stack := above ++ below } : Drain β).run fuel).map Ending.flat
        = some ending := by
  rw [Follows.ending_iff (follows_stack · _), Follows.ending_iff (follows_stack · _)]
  simp only [List.foldlM_append, List.foldlM_cons, Course.drain_nil, pure_bind]
  rfl

end Drain

namespace Director

variable [Behavior β]

theorem update_iff (director : Director β) (sim real : Float) (ending : Ending β) :
    (∃ fuel, (director.update fuel sim real).map Ending.flat = some ending)
      ↔ ∃ fuel, (director.updateRecursively fuel sim real).map Ending.flat = some ending := by
  unfold update updateRecursively
  rcases director.fault with _ | reason
  · exact Drain.Follows.ending_iff (fun fuel => Drain.follows_drain fuel .wave _ _ _ ⟨rfl, rfl⟩ rfl)
      ending
  · rfl

/-- The loop and the recursion end a tick alike: when one of them comes to an end, so does the
other, and apart from depths both were told of the same calls in the same order and leave the same
report, script, queues and messages. When the loop closes an exhausted frame makes no difference
to this. -/
theorem update_iff_updateRecursively :
    (∀ (director : Director β) (sim real : Float) (ending : Ending β),
      (∃ fuel, (director.update fuel sim real).map Ending.flat = some ending)
        ↔ ∃ fuel, (director.updateRecursively fuel sim real).map Ending.flat = some ending)
      ∧ ∀ (drain : Drain β) (above below : List (List Activation)) (ending : Ending β),
        (∃ fuel, (({ drain with stack := above ++ [] :: below } : Drain β).run fuel).map Ending.flat
            = some ending)
          ↔ ∃ fuel, (({ drain with stack := above ++ below } : Drain β).run fuel).map Ending.flat
            = some ending :=
  ⟨update_iff, Drain.ending_of_exhausted⟩

end Director

end FlowScript
