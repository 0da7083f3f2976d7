import FlowScript.Proofs.Ending
import FlowScript.Proofs.Safety
import FlowScript.Proofs.Stranded
import Mathlib.Data.List.DropRight

/-!
# What a delay counts

A delay that can be read counts each tick once, in its first call, if that resumes it. So the
seconds that it has counted are those of the ticks since it was last started (`Tick.elapsed`), and
it pulses one output at most for each time that it is started.
-/

namespace FlowScript

variable {β σ : Type} [Behavior β]

open Standard

/-- How often a countdown is still to count in a tick: once, if it runs and has not counted it. -/
def Countdown.due (countdown : Countdown) (tick : Nat) : Nat :=
  if countdown.running = true ∧ countdown.lastTick ≠ tick then 1 else 0

theorem Activation.OnStart.not_cancel {a : Activation} (h : a.OnStart) : a.input ≠ some 1 := by
  rintro hcancel
  rcases h with h | h <;> rw [hcancel] at h <;> cases h

namespace Moment

/-! ## What calls spend -/

omit [Behavior β] in
/-- If each call spends no more than it earns, and what it leaves of a stock, then so do all. -/
theorem Chain.spends {γ : Type} {R : σ → Moment β → σ → Prop} {first last : σ}
    {calls : List (Moment β)} (stock : σ → Nat) (spent : Moment β → List γ)
    (earns : Moment β → Prop) [DecidablePred earns] (h : Chain R first calls last)
    (step : ∀ m ∈ calls, ∀ s s', R s m s' →
      (spent m).length + stock s' ≤ (if earns m then 1 else 0) + stock s) :
    (calls.flatMap spent).length + stock last ≤ calls.countP (earns ·) + stock first := by
  induction h with
  | nil => simp
  | @cons state next last m calls hstep rest ih =>
    rw [List.forall_mem_cons] at step
    have hfirst := step.1 _ _ hstep
    have hrest := ih step.2
    rw [List.flatMap_cons, List.length_append, List.countP_cons]
    simp only [decide_eq_true_eq]
    omega

variable {m : Moment β} {id : NodeId} {countdown after : Countdown} {calls : List (Moment β)}

/-- A call that waits pulses `Out`, or the countdown goes on running. -/
theorem Awaits.length_pulsed {elapsed : Float} {running : Bool} (h : m.Awaits elapsed running) :
    m.pulsed.length + running.toNat = 1 := by
  cases h with
  | read delay reads returns =>
    rw [returns.pulsed]
    by_cases hle : delay ≤ elapsed
    · rw [if_pos hle, decide_eq_true hle]
      rfl
    · rw [if_neg hle, decide_eq_false hle]
      rfl
  | unread missing fails =>
    rw [fails.pulsed]
    rfl

/-- What a call pulses, a start or the countdown that ran before it has earned. -/
theorem Beats.spends_pulses (h : Beats countdown m after) (node : m.activation.node = id) :
    m.pulsed.length + after.running.toNat
      ≤ (if m.activation.Begins id then 1 else 0) + countdown.running.toNat := by
  cases h with
  | cancelled cancel running returns =>
    rw [returns.pulsed, running]
    exact Nat.le_add_left 1 _
  | needless cancel idle returns | stale start resumed idle returns =>
    rw [returns.pulsed]
    exact Nat.add_le_add_right (Nat.zero_le _) _
  | started start first awaits =>
    have hbegins : m.activation.Begins id := ⟨node, first, start⟩
    rw [if_pos hbegins, awaits.length_pulsed]
    exact Nat.le_add_right 1 _
  | counted start resumed running fresh awaits =>
    rw [awaits.length_pulsed, running]
    exact Nat.le_add_left 1 _


theorem Returns.countP_carried {latent : Bool} {pulses : List Nat} (h : m.Returns latent pulses)
    (id : NodeId) : m.carried.countP (·.Continues id) ≤ latent.toNat := by
  obtain ⟨call, hc, hv, -⟩ := h.call
  rw [Moment.countP_carried hc hv]
  cases latent <;> simp
  split <;> simp

theorem Awaits.countP_carried {elapsed : Float} {running : Bool} (h : m.Awaits elapsed running)
    (id : NodeId) : m.carried.countP (·.Continues id) ≤ 1 := by
  cases h with
  | read delay reads returns => exact (returns.countP_carried id).trans (Bool.toNat_le _)
  | unread missing fails =>
    rw [carried_of_failed fails.fate]
    exact Nat.zero_le 1

/-- What a call carries over, a start or the countdown that had not counted the tick has earned. -/
theorem Beats.spends_carried (h : Beats countdown m after) (node : m.activation.node = id) :
    m.carried.countP (·.Continues id) + after.due m.director.clock.tick
      ≤ (if m.activation.Begins id then 1 else 0) + countdown.due m.director.clock.tick := by
  cases h with
  | cancelled cancel running returns =>
    have hnone := returns.countP_carried id
    rw [Nat.le_zero.1 hnone]
    simp [Countdown.due]
  | needless cancel idle returns | stale start resumed idle returns =>
    have hnone := returns.countP_carried id
    rw [Nat.le_zero.1 hnone]
    exact Nat.add_le_add_right (Nat.zero_le _) _
  | started start first awaits =>
    have hbegins : m.activation.Begins id := ⟨node, first, start⟩
    rw [if_pos hbegins, Countdown.due, if_neg fun hdue => hdue.2 rfl]
    exact (awaits.countP_carried id).trans (Nat.le_add_right 1 _)
  | counted start resumed running fresh awaits =>
    have hdue : countdown.due m.director.clock.tick = 1 := if_pos ⟨running, fresh⟩
    rw [hdue, Countdown.due, if_neg fun hdue => hdue.2 rfl]
    exact (awaits.countP_carried id).trans (Nat.le_add_left 1 _)

/-- A delay pulses no more often than it was started. -/
theorem Chain.length_pulsed {first : Countdown} (h : Chain Beats first calls after)
    (idle : first.running = false) (node : ∀ m ∈ calls, m.activation.node = id) :
    (calls.flatMap pulsed).length ≤ calls.countP (·.activation.Begins id) := by
  have hspends := h.spends (·.running.toNat) (·.pulsed) (·.activation.Begins id)
    fun m hm _ _ hbeats => hbeats.spends_pulses (node m hm)
  rw [idle] at hspends
  exact Nat.le_of_add_right_le hspends

/-- The calls of a tick carry over one activation for each start, and one more at most. -/
theorem Chain.countP_carried {tick : Nat} (h : Chain Beats countdown calls after)
    (node : ∀ m ∈ calls, m.activation.node = id)
    (clock : ∀ m ∈ calls, m.director.clock.tick = tick) :
    (calls.flatMap carried).countP (·.Continues id)
      ≤ 1 + calls.countP (·.activation.Begins id) := by
  have hspends := h.spends (·.due tick) (·.carried.filter (·.Continues id))
    (·.activation.Begins id) fun m hm _ _ hbeats => by
      rw [← List.countP_eq_length_filter, ← clock m hm]
      exact hbeats.spends_carried (node m hm)
  have hdue : countdown.due tick ≤ 1 := by
    rw [Countdown.due]
    split <;> simp
  rw [List.countP_eq_length_filter, List.filter_flatMap]
  omega

/-! ## Starts that nothing has answered -/

/-- One of the calls started the delay, and nothing was pulsed since. -/
def Unanswered (id : NodeId) (calls : List (Moment β)) : Prop :=
  ∃ earlier m later, calls = earlier ++ m :: later ∧ m.activation.Begins id
    ∧ ∀ m' ∈ m :: later, m'.pulsed = []

theorem not_unanswered_nil : ¬ Unanswered id ([] : List (Moment β)) := by
  rintro ⟨earlier, m, later, hsplit, -⟩
  simp at hsplit

theorem unanswered_concat : Unanswered id (calls ++ [m])
    ↔ m.pulsed = [] ∧ (m.activation.Begins id ∨ Unanswered id calls) := by
  constructor
  · rintro ⟨earlier, start, later, hsplit, begins, silent⟩
    rcases List.eq_nil_or_concat later with rfl | ⟨later, last, rfl⟩
    · obtain ⟨-, hsame⟩ := List.append_inj' hsplit rfl
      obtain rfl := List.singleton_inj.1 hsame
      exact ⟨silent m List.mem_cons_self, .inl begins⟩
    · rw [List.concat_eq_append, ← List.cons_append] at hsplit silent
      rw [List.forall_mem_append, List.forall_mem_singleton] at silent
      rw [← List.append_assoc] at hsplit
      obtain ⟨rfl, hsame⟩ := List.append_inj' hsplit rfl
      obtain rfl := List.singleton_inj.1 hsame
      exact ⟨silent.2, .inr ⟨earlier, start, later, rfl, begins, silent.1⟩⟩
  · rintro ⟨silent, begins | ⟨earlier, start, later, rfl, begins, since⟩⟩
    · exact ⟨calls, m, [], rfl, begins, List.forall_mem_singleton.2 silent⟩
    · refine ⟨earlier, start, later ++ [m], by simp, begins, ?_⟩
      rw [← List.cons_append]
      exact List.forall_mem_append.2 ⟨since, List.forall_mem_singleton.2 silent⟩

theorem Awaits.running_iff {elapsed : Float} {running : Bool} (h : m.Awaits elapsed running) :
    running = true ↔ m.pulsed = [] := by
  have hlength := h.length_pulsed
  rw [← List.length_eq_zero_iff]
  cases running with
  | false =>
    refine iff_of_false Bool.false_ne_true fun hnone => ?_
    rw [hnone] at hlength
    cases hlength
  | true => exact iff_of_true rfl (Nat.succ.inj hlength)

theorem Beats.running_iff (h : Beats countdown m after) (node : m.activation.node = id) :
    after.running = true
      ↔ m.pulsed = [] ∧ (m.activation.Begins id ∨ countdown.running = true) := by
  cases h with
  | cancelled cancel running returns => simp [returns.pulsed]
  | needless cancel idle returns =>
    have hnot : ¬ m.activation.Begins id := fun begins => begins.2.2.not_cancel cancel
    simp [returns.pulsed, idle, hnot]
  | started start first awaits =>
    have hbegins : m.activation.Begins id := ⟨node, first, start⟩
    exact awaits.running_iff.trans (and_iff_left (.inl hbegins)).symm
  | stale start resumed idle returns =>
    have hnot : ¬ m.activation.Begins id := fun begins => by
      rw [begins.2.1] at resumed
      cases resumed
    simp [returns.pulsed, hnot]
  | counted start resumed running fresh awaits =>
    exact awaits.running_iff.trans (and_iff_left (.inr running)).symm

/-- A countdown runs when a start has not been answered. -/
theorem Chain.running_iff {first : Countdown} (h : Chain Beats first calls after)
    (idle : first.running = false) (node : ∀ m ∈ calls, m.activation.node = id) :
    after.running = true ↔ Unanswered id calls := by
  induction calls using List.reverseRecOn generalizing after with
  | nil =>
    cases h
    rw [idle]
    exact iff_of_false Bool.false_ne_true not_unanswered_nil
  | append_singleton earlier m ih =>
    rw [List.forall_mem_append, List.forall_mem_singleton] at node
    obtain ⟨between, hearlier, hbeats⟩ := h.concat
    rw [unanswered_concat, ← ih hearlier node.1, hbeats.running_iff node.2]

/-! ## Counting a tick -/

/-- The call compares the seconds that it reads with those that have passed, and pulses `Out` if
they have passed. -/
def Compares (m : Moment β) (elapsed : Float) : Prop :=
  ∃ delay, m.delay? = some delay
    ∧ m.Returns (!decide (delay ≤ elapsed)) (if delay ≤ elapsed then [0] else [])

theorem Awaits.compares {elapsed : Float} {running : Bool} (h : m.Awaits elapsed running)
    (read : ¬ m.Unread) : m.Compares elapsed := by
  cases h with
  | read delay reads returns => exact ⟨delay, reads, returns⟩
  | unread missing fails => exact absurd ⟨missing, fails.fate⟩ read

theorem Beats.kinds (h : Beats countdown m after) (node : m.activation.node = id) :
    m.activation.Begins id ∨ m.activation.Continues id ∨ m.activation.input = some 1 := by
  cases h with
  | cancelled cancel running returns => exact .inr (.inr cancel)
  | needless cancel idle returns => exact .inr (.inr cancel)
  | started start first awaits => exact .inl ⟨node, first, start⟩
  | stale start resumed idle returns => exact .inr (.inl ⟨node, resumed, start⟩)
  | counted start resumed running fresh awaits => exact .inr (.inl ⟨node, resumed, start⟩)

theorem Beats.starts (h : Beats countdown m after) (read : ¬ m.Unread)
    (begins : m.activation.Begins id) : m.Compares 0 := by
  obtain ⟨-, hfirst, hstart⟩ := begins
  cases h with
  | cancelled cancel running returns => exact absurd cancel hstart.not_cancel
  | needless cancel idle returns => exact absurd cancel hstart.not_cancel
  | started start first awaits => exact awaits.compares read
  | stale start resumed idle returns | counted start resumed running fresh awaits =>
    rw [hfirst] at resumed
    cases resumed

theorem Beats.cancels (h : Beats countdown m after) (cancel : m.activation.input = some 1) :
    m.Returns false (if countdown.running then [1] else []) := by
  cases h with
  | cancelled cancel running returns => rwa [if_pos running]
  | needless cancel idle returns => rwa [idle]
  | started start first awaits => exact absurd cancel start.not_cancel
  | stale start resumed idle returns => exact absurd cancel start.not_cancel
  | counted start resumed running fresh awaits => exact absurd cancel start.not_cancel

theorem Beats.counts (h : Beats countdown m after) (read : ¬ m.Unread)
    (continues : m.activation.Continues id) (running : countdown.running = true)
    (fresh : countdown.lastTick ≠ m.director.clock.tick) :
    m.Compares (countdown.elapsed + m.director.clock.simDelta) := by
  obtain ⟨-, hfirst, hstart⟩ := continues
  cases h with
  | cancelled cancel running returns => exact absurd cancel hstart.not_cancel
  | needless cancel idle returns => exact absurd cancel hstart.not_cancel
  | started start first awaits =>
    rw [hfirst] at first
    cases first
  | stale start resumed idle returns =>
    rcases idle with idle | counted
    · rw [running] at idle
      cases idle
    · exact absurd counted fresh
  | counted start resumed running fresh awaits => exact awaits.compares read

theorem Beats.idles (h : Beats countdown m after) (continues : m.activation.Continues id)
    (idle : countdown.running = true → countdown.lastTick = m.director.clock.tick) :
    m.Returns false [] := by
  obtain ⟨-, hfirst, hstart⟩ := continues
  cases h with
  | cancelled cancel running returns => exact absurd cancel hstart.not_cancel
  | needless cancel idle returns => exact absurd cancel hstart.not_cancel
  | started start first awaits =>
    rw [hfirst] at first
    cases first
  | stale start resumed idle returns => exact returns
  | counted start resumed running fresh awaits => exact absurd (idle running) fresh

/-- After the calls of a tick that had not been counted, a countdown that runs has been started or
has counted the tick. -/
theorem Chain.elapsed {clock : Clock} (h : Chain Beats countdown calls after)
    (node : ∀ m ∈ calls, m.activation.node = id) (ticking : ∀ m ∈ calls, m.director.clock = clock)
    (fresh : countdown.running = true → countdown.lastTick ≠ clock.tick)
    (running : after.running = true) (called : calls ≠ []) :
    (∃ m ∈ calls, m.activation.Begins id) ∧ after.elapsed = 0
      ∨ (∀ m ∈ calls, ¬ m.activation.Begins id) ∧ countdown.running = true
        ∧ after.elapsed = countdown.elapsed + clock.simDelta := by
  induction calls using List.reverseRecOn generalizing after with
  | nil => exact absurd rfl called
  | append_singleton earlier m ih =>
    rw [List.forall_mem_append, List.forall_mem_singleton] at node ticking
    have hnot (resumed : m.activation.first = false) : ¬ m.activation.Begins id := fun begins => by
      rw [begins.2.1] at resumed
      cases resumed
    obtain ⟨between, hearlier, hbeats⟩ := h.concat
    cases hbeats with
    | cancelled cancel hrunning returns => cases running
    | needless cancel idle returns =>
      rw [idle] at running
      cases running
    | started start first awaits =>
      exact .inl ⟨⟨m, List.mem_append_right _ List.mem_cons_self, node.2, first, start⟩, rfl⟩
    | stale start resumed idle returns =>
      rcases eq_or_ne earlier [] with rfl | hcalled
      · -- The first call would have counted the tick.
        cases hearlier
        rcases idle with idle | hcounted
        · rw [idle] at running
          cases running
        · exact absurd (hcounted.trans (congrArg Clock.tick ticking.2)) (fresh running)
      rcases ih hearlier node.1 ticking.1 running hcalled with
        ⟨⟨start, hstart, hbegins⟩, hzero⟩ | ⟨hnone, hrunning, hsum⟩
      · exact .inl ⟨⟨start, List.mem_append_left _ hstart, hbegins⟩, hzero⟩
      · refine .inr ⟨?_, hrunning, hsum⟩
        exact List.forall_mem_append.2 ⟨hnone, List.forall_mem_singleton.2 (hnot resumed)⟩
    | counted start resumed hrunning hfresh awaits =>
      -- Only the first call can find the tick uncounted.
      have hclock : ∀ m ∈ earlier, m.director.clock.tick = clock.tick := fun m hm =>
        congrArg Clock.tick (ticking.1 m hm)
      rw [ticking.2] at hfresh ⊢
      rcases hearlier.pending node.1 hclock fresh hrunning with ⟨rfl, rfl⟩ | ⟨hcounted, -⟩
      · exact .inr ⟨List.forall_mem_singleton.2 (hnot resumed), hrunning, rfl⟩
      · exact absurd hcounted hfresh

end Moment

/-! ## In a run -/

namespace Tick

variable {id : NodeId} {ticks : List (Tick β)} {tick : Tick β}

/-- The delay is started in the tick. -/
def Starts (id : NodeId) (tick : Tick β) : Prop := ∃ m ∈ tick.calls id, m.activation.Begins id

instance (id : NodeId) (tick : Tick β) : Decidable (tick.Starts id) :=
  inferInstanceAs (Decidable (∃ m ∈ _, _))

/-- The ticks after the last one in which the delay was started. -/
def sinceStart (id : NodeId) (ticks : List (Tick β)) : List (Tick β) :=
  ticks.rtakeWhile fun tick => ¬ tick.Starts id

/-- The simulated seconds of the ticks since the delay was started. -/
def elapsed (id : NodeId) (ticks : List (Tick β)) : Float :=
  (sinceStart id ticks).foldl (fun seconds tick => seconds + Clock.sanitize tick.sim) 0

theorem elapsed_of_starts (h : tick.Starts id) : elapsed id (ticks ++ [tick]) = 0 := by
  rw [elapsed, sinceStart, List.rtakeWhile_concat, if_neg (by simpa using h), List.foldl_nil]

theorem elapsed_of_not_starts (h : ¬ tick.Starts id) :
    elapsed id (ticks ++ [tick]) = elapsed id ticks + Clock.sanitize tick.sim := by
  rw [elapsed, sinceStart, List.rtakeWhile_concat, if_pos (by simpa using h), List.foldl_append]
  rfl

/-- What a delay does when it is called in a tick, after earlier calls in the ticks before and in
this one. A start that nothing has answered is counted once in the tick, if the tick's first call
resumes the delay. -/
structure Counts (id : NodeId) (before : List (Tick β)) (tick : Tick β) (earlier : List (Moment β))
    (m : Moment β) : Prop where
  kinds : m.activation.Begins id ∨ m.activation.Continues id ∨ m.activation.input = some 1
  starts : m.activation.Begins id → m.Compares 0
  cancels : m.activation.input = some 1 →
    Moment.Unanswered id (before.flatMap (calls id) ++ earlier) → m.Returns false [1]
  needless : m.activation.input = some 1 →
    ¬ Moment.Unanswered id (before.flatMap (calls id) ++ earlier) → m.Returns false []
  counts : m.activation.Continues id → earlier = [] →
    Moment.Unanswered id (before.flatMap (calls id)) →
      m.Compares (elapsed id before + Clock.sanitize tick.sim)
  idles : m.activation.Continues id →
    earlier ≠ [] ∨ ¬ Moment.Unanswered id (before.flatMap (calls id)) → m.Returns false []

end Tick

variable {embed : Standard → β} {id : NodeId} {first countdown : Countdown}

namespace Director.Delays

variable {ticks : List (Tick β)} {director : Director β}

theorem running_iff {calls : List (Moment β)} {after : Countdown}
    (h : director.Delays embed id first ticks countdown) (idle : first.running = false)
    (chain : Moment.Chain Moment.Beats countdown calls after)
    (node : ∀ m ∈ calls, m.activation.node = id) :
    after.running = true ↔ Moment.Unanswered id (ticks.flatMap (Tick.calls id) ++ calls) := by
  refine (h.beats.append chain).running_iff idle (List.forall_mem_append.2 ⟨fun m hm => ?_, node⟩)
  exact Tick.node_of_mem_flatMap hm

variable {tick : Tick β}

/-- A delay that has been read is called in every tick in which its countdown runs. -/
theorem called_of_running (h : tick.before.Delays embed id first ticks countdown)
    (happened : tick.Happened) (running : countdown.running = true)
    (reads : ∀ m ∈ ticks.flatMap (Tick.calls id), ¬ m.Unread) : tick.calls id ≠ [] := by
  refine h.called happened ((h.waits running).resolve_right ?_)
  rintro ⟨earlier, m, later, hcalls, hunread, -⟩
  exact reads m (by rw [hcalls]; simp) hunread

theorem elapsed (h : tick.before.Delays embed id first ticks countdown) (happened : tick.Happened)
    (reads : ∀ m ∈ ticks.flatMap (Tick.calls id), ¬ m.Unread)
    (sum : countdown.running = true → countdown.elapsed = Tick.elapsed id ticks)
    {after : Countdown} (chain : Moment.Chain Moment.Beats countdown (tick.calls id) after)
    (running : after.running = true) : after.elapsed = Tick.elapsed id (ticks ++ [tick]) := by
  obtain ⟨hafter, hclock⟩ := happened.clock
  have hcalled : tick.calls id ≠ [] := by
    intro hnone
    rw [hnone] at chain
    cases chain
    exact h.called_of_running happened running reads hnone
  rcases chain.elapsed (fun _ hm => Tick.node_of_mem_calls hm) (hclock id) (h.fresh happened)
    running hcalled with ⟨hstarts, hzero⟩ | ⟨hnone, hrunning, hsum⟩
  · rw [hzero, Tick.elapsed_of_starts hstarts]
  · have hnot : ¬ tick.Starts id := fun ⟨m, hm, hbegins⟩ => hnone m hm hbegins
    rw [hsum, sum hrunning, Tick.elapsed_of_not_starts hnot, hafter]
    rfl

theorem counts (h : tick.before.Delays embed id first ticks countdown) (happened : tick.Happened)
    (idle : first.running = false)
    (sum : countdown.running = true → countdown.elapsed = Tick.elapsed id ticks)
    {after : Countdown} (chain : Moment.Chain Moment.Beats countdown (tick.calls id) after)
    {earlier later : List (Moment β)} {m : Moment β} (split : tick.calls id = earlier ++ m :: later)
    (read : ¬ m.Unread) : tick.Counts id ticks earlier m := by
  have hmem : ∀ m' ∈ earlier ++ [m], m' ∈ tick.calls id := fun m' hm' => by
    rw [split, List.append_cons]
    exact List.mem_append_left _ hm'
  rw [List.forall_mem_append, List.forall_mem_singleton] at hmem
  rw [split] at chain
  obtain ⟨between, hearlier, hlater⟩ := chain.split
  cases hlater with
  | cons hbeats rest =>
  have hclock := happened.clock.2 id m hmem.2
  have hbefore := h.running_iff idle .nil (List.forall_mem_nil _)
  rw [List.append_nil] at hbefore
  have hbetween :=
    h.running_iff idle hearlier fun m' hm' => Tick.node_of_mem_calls (hmem.1 m' hm')
  refine ⟨hbeats.kinds (Tick.node_of_mem_calls hmem.2), hbeats.starts read,
    fun cancel hrunning => ?_, fun cancel hnot => ?_, fun continues hnone hrunning => ?_,
    fun continues hnot => ?_⟩
  · have hreturns := hbeats.cancels cancel
    rwa [if_pos (hbetween.2 hrunning)] at hreturns
  · have hreturns := hbeats.cancels cancel
    rwa [if_neg fun hrunning => hnot (hbetween.1 hrunning)] at hreturns
  · subst hnone
    cases hearlier
    have hrunning := hbefore.2 hrunning
    have hcompares := hbeats.counts read continues hrunning (by
      rw [hclock]
      exact h.fresh happened hrunning)
    rwa [sum hrunning, hclock, happened.clock.1] at hcompares
  · refine hbeats.idles continues fun hrunning => ?_
    rw [hclock]
    rcases h.pending happened hmem.1 hearlier hrunning with ⟨rfl, rfl⟩ | ⟨hcounted, -⟩
    · exact absurd (hbefore.1 hrunning) (hnot.resolve_left fun hne => hne rfl)
    · exact hcounted

end Director.Delays

namespace Director

variable {start director : Director β} {injected : List Activation} {ticks : List (Tick β)}

/-- A delay that is never removed and can always be read counts each tick once. It pulses `Out` or
`Cancelled` no more often than it was started; while a start is not answered, and only then, its
countdown runs, has counted the ticks since the start, and is called in each tick. What each call
does is given by `Tick.Counts`, and for each start in a tick one activation at most is added to the
one that may wait for the next tick. -/
theorem Run.counts_ticks (hosts : Hosts embed) (given : id.raw < start.script.nextNode)
    (run : start.Run injected ticks director)
    (stays : director.script.containsNode id = true)
    (begin : start.script.Holds id delayNode.shape (embed (.delay first)))
    (idle : first.running = false)
    (reads : ∀ m ∈ ticks.flatMap (Tick.calls id), ¬ m.Unread) :
    (∀ calls later, ticks.flatMap (Tick.calls id) = calls ++ later →
        (calls.flatMap Moment.pulsed).length ≤ calls.countP (·.activation.Begins id))
      ∧ (∃ countdown, director.script.Holds id delayNode.shape (embed (.delay countdown))
        ∧ (countdown.running = true ↔ Moment.Unanswered id (ticks.flatMap (Tick.calls id)))
        ∧ (countdown.running = true → countdown.elapsed = Tick.elapsed id ticks))
      ∧ ∀ before tick after, ticks = before ++ tick :: after →
        (Moment.Unanswered id (before.flatMap (Tick.calls id)) → tick.calls id ≠ [])
          ∧ (∀ earlier m later, tick.calls id = earlier ++ m :: later →
            tick.Counts id before earlier m)
          ∧ tick.after.queued.countP (·.Continues id)
            ≤ 1 + (tick.calls id).countP (·.activation.Begins id) := by
  obtain ⟨⟨countdown, hlast, hsum⟩, heach⟩ := run.delays
    (Q := fun ticks countdown => (∀ m ∈ ticks.flatMap (Tick.calls id), ¬ m.Unread) →
      countdown.running = true → countdown.elapsed = Tick.elapsed id ticks)
    hosts given stays begin idle (fun _ => by rw [idle]; nofun) (by
      intro ticks tick countdown after happened hdelays chain hsum reads
      rw [List.flatMap_append, List.forall_mem_append] at reads
      exact hdelays.elapsed happened reads.1 (hsum reads.1) chain)
  have hrunning := hlast.running_iff idle .nil (List.forall_mem_nil _)
  rw [List.append_nil] at hrunning
  refine ⟨fun calls later hsplit => ?_, ⟨countdown, hlast.holds, hrunning, hsum reads⟩, ?_⟩
  · have hbeats := hlast.beats
    rw [hsplit] at hbeats
    obtain ⟨between, hcalls, -⟩ := hbeats.split
    refine hcalls.length_pulsed idle fun m hm => ?_
    have hmem : m ∈ ticks.flatMap (Tick.calls id) := by
      rw [hsplit]
      exact List.mem_append_left _ hm
    exact Tick.node_of_mem_flatMap hmem
  · intro before tick after hticks
    obtain ⟨countdown, hbefore, hsum⟩ := heach before tick after hticks
    have happened := run.happened tick (by
      rw [hticks]
      exact List.mem_append_right _ List.mem_cons_self)
    rw [hticks, List.flatMap_append, List.flatMap_cons, List.forall_mem_append,
      List.forall_mem_append] at reads
    obtain ⟨hreads, hread, -⟩ := reads
    obtain ⟨countdown', hchain, -⟩ := hbefore.update hosts happened
    have hrunning := hbefore.running_iff idle .nil (List.forall_mem_nil _)
    rw [List.append_nil] at hrunning
    refine ⟨fun hstart => hbefore.called_of_running happened (hrunning.2 hstart) hreads,
      fun earlier m later hcalls => ?_, ?_⟩
    · refine hbefore.counts happened idle (hsum hreads) hchain hcalls (hread m ?_)
      rw [hcalls]
      exact List.mem_append_right _ List.mem_cons_self
    · rw [happened.countP_queued]
      exact hchain.countP_carried (fun _ hm => Tick.node_of_mem_calls hm)
        fun m hm => congrArg Clock.tick (happened.clock.2 id m hm)

end Director

/-! ## Well-typed scripts -/

/-- In a well-typed script a delay can be read. -/
theorem Script.Sound.read {m : Moment Standard} (h : m.director.script.Sound)
    (holds : m.director.script.Holds m.activation.node delayNode.shape (.delay countdown)) :
    ¬ m.Unread := by
  rintro ⟨-, failed⟩
  cases m.handled with
  | discarded target outcome =>
    rw [outcome] at failed
    cases failed
  | halted halt =>
    rw [failed] at halt
    exact halt
  | failed node call script error target made verdict fate after =>
    obtain ⟨-, node', target', honly⟩ := h.error made verdict
    obtain ⟨node'', hn, hshape, hb⟩ := holds
    obtain rfl := Option.some.inj (target.symm.trans target')
    obtain rfl := Option.some.inj ((Moment.target?_eq_some.1 target).1.symm.trans hn)
    obtain ⟨-, hloop, -⟩ := honly (by
      rw [(rings_of_shape hshape).length]
      decide)
    rw [hb] at hloop
    cases hloop
  | completed node call script latent target made verdict fate after spent =>
    rw [fate] at failed
    cases failed

theorem Tick.reads {tick : Tick Standard} (sound : tick.before.script.Sound)
    (holds : tick.before.script.Holds id delayNode.shape (.delay countdown)) :
    ∀ m ∈ tick.calls id, ¬ m.Unread := by
  intro m hm
  obtain ⟨hsound, countdown', hholds⟩ := (Director.keeps_update
    (P := fun script => script.Sound
      ∧ ∃ countdown, script.Holds id delayNode.shape (.delay countdown))
    (fun m h => by
      obtain ⟨hsound, countdown, hholds⟩ := h
      obtain ⟨after, -, hafter⟩ := hholds.beats Standard.hosts
      exact ⟨hsound.outcome m, after, hafter⟩)
    ⟨sound, countdown, holds⟩ tick.fuel tick.sim tick.real).2 m (List.mem_of_mem_filter hm)
  obtain rfl := Tick.node_of_mem_calls hm
  exact hsound.read hholds

namespace Director

/-- A delay that is to be started. -/
def kettle : Director Standard :=
  [Move.edit (.addNode rootGraph delayNode), press "Start"].foldl move
    { script := .withRootName "root" }

theorem sound_of_kettle : kettle.script.Sound := by
  have instance_delay : Standard.Instance delayNode :=
    ⟨coreType "Delay", [], (fun _ _ _ he => nomatch he), rfl⟩
  have edited : (Script.edit (.withRootName "root") (.addNode rootGraph delayNode)).Sound :=
    .edit (.withRootName "root") id instance_delay
  exact edited

/-- The tick in which the delay is started ends, whatever the delay makes of its zero seconds. -/
theorem tick_of_kettle : ∃ (fuel : Nat) (report : Report) (after : Director Standard),
    (⟨kettle, fuel, 0.5, 0.5, report, after⟩ : Tick Standard).Happened := by
  have hbehaviors : kettle.script.nodes.map (fun node => (node.id, node.behavior)) =
      [(⟨0⟩, some (.delay {}))] := rfl
  have unwinds : kettle.script.Unwinds := by
    rintro loop reached ⟨current, hloop⟩
    obtain ⟨node, hn, hb⟩ := Option.bind_eq_some_iff.1 hloop
    simpa using Script.behavior_listed hbehaviors hn hb
  obtain ⟨fuel, ⟨ending, after⟩, hrun⟩ :=
    (Drain.passes_wave unwinds _ (kettle.begin 0.5 0.5) ⟨rfl, rfl⟩ (.refl _)).ends
  have hupdate : kettle.update fuel 0.5 0.5 = some (ending, after) := hrun
  have fresh : Director.Ready ({ script := .withRootName "root" } : Director Standard) :=
    ⟨rfl, rfl, fun _ _ hn => by cases hn⟩
  have ready : kettle.Ready :=
    (fresh.move (.edit (.addNode rootGraph delayNode))).move (press "Start")
  rcases ready.update hupdate with ⟨report, rfl, -⟩ | ⟨-, -, hlets, -⟩
  · exact ⟨fuel, report, after, hupdate⟩
  · cases hlets

theorem delay_of_kettle : kettle.script.Holds ⟨0⟩ delayNode.shape (.delay {}) := ⟨_, rfl, rfl, rfl⟩

/-- The start is answered at once, or it is not answered in this tick. -/
theorem Run.counts_ticks_of_kettle : ∃ (tick : Tick Standard) (m : Moment Standard),
    kettle.Run [] [tick] tick.after ∧ m ∈ tick.calls ⟨0⟩ ∧ m.activation.Begins ⟨0⟩ ∧ m.Compares 0
      ∧ ((tick.calls ⟨0⟩).flatMap Moment.pulsed).length
        ≤ (tick.calls ⟨0⟩).countP (·.activation.Begins ⟨0⟩) := by
  obtain ⟨fuel, report, after, happened⟩ := tick_of_kettle
  let tick : Tick Standard := ⟨kettle, fuel, 0.5, 0.5, report, after⟩
  have run : kettle.Run [] [tick] after := .tick tick .begin happened
  have stays : after.script.containsNode ⟨0⟩ = true := by
    have hdelays : kettle.Delays id ⟨0⟩ {} [] {} := ⟨delay_of_kettle, .nil, nofun, nofun⟩
    obtain ⟨countdown, -, hafter⟩ := hdelays.update Standard.hosts happened
    obtain ⟨node, hn, -⟩ := hafter.holds
    exact Option.isSome_iff_exists.2 ⟨node, hn⟩
  have reads : ∀ m ∈ tick.calls ⟨0⟩, ¬ m.Unread := Tick.reads sound_of_kettle delay_of_kettle
  have hqueued : { node := ⟨0⟩, input := some 0 } ∈ kettle.queued := List.mem_singleton.2 rfl
  obtain ⟨m, hm, hactivation⟩ := happened.called hqueued rfl rfl
  have begins : m.activation.Begins ⟨0⟩ := by
    rw [hactivation]
    decide
  obtain ⟨hpulses, -, heach⟩ := run.counts_ticks Standard.hosts (by decide) stays delay_of_kettle
    rfl (by rwa [List.flatMap_singleton])
  obtain ⟨earlier, later, hcalls⟩ := List.append_of_mem hm
  obtain ⟨-, hcounts, -⟩ := heach [] tick [] rfl
  refine ⟨tick, m, run, hm, begins, (hcounts earlier m later hcalls).starts begins, ?_⟩
  exact hpulses (tick.calls ⟨0⟩) [] (by rw [List.flatMap_singleton, List.append_nil])

end Director

end FlowScript
