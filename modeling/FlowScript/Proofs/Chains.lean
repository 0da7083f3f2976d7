import FlowScript.Proofs.OneSide
import FlowScript.Proofs.Recursive

/-!
# Chains that do not interfere

The frames that are open at a time are all of one side, for only a call in a frame adds to the
frames. So a tick makes on one side the steps of the tick in which nothing of the other side waits,
and in between it makes steps that are not seen from there (`Beside.step`). The same holds of all
the ticks that a host has run (`Beside.play`).
-/

namespace FlowScript

variable {side : NodeId → Bool} {start : Script Standard}

namespace Director

theorem only_carry {β : Type} (director : Director β) (more : List Activation) :
    ({ director with nextWave := director.nextWave ++ more } : Director β).only side =
      { director.only side with
        nextWave := (director.only side).nextWave ++ more.filter (side ·.node) } := by
  simp only [only, List.filter_append]

/-- The second director is the first one as far as one side is concerned, and nothing of the other
side waits in it. -/
structure Beside (start : Script Standard) (side : NodeId → Bool)
    (both alone : Director Standard) : Prop where
  only : alone.only side = both.only side
  queued : ∀ a ∈ alone.queued, side a.node = true
  both : start.Follows both.script
  alone : start.Follows alone.script

end Director

namespace Drain

/-- The second tick is the first one as far as one side is concerned. The open frames are those of
the first tick, or these are all of the other side. -/
structure Beside (start : Script Standard) (side : NodeId → Bool) (both alone : Drain Standard) :
    Prop where
  director : both.director.Beside start side alone.director
  wave : alone.wave = both.wave.filter (side ·.node)
  stack : alone.stack = both.stack ∧ (∀ a ∈ both.stack.flatten, side a.node = true)
    ∨ alone.stack = [] ∧ ∀ a ∈ both.stack.flatten, side a.node = false

section handling

variable (apart : start.Apart side) (hu : start.Unlinked)

include apart hu

/-- Where two ticks are alike on a side, they handle an activation of this side alike. -/
theorem handle_only {left right next : Drain Standard} {a : Activation}
    (h : left.director.Beside start side right.director) (hstack : right.stack = left.stack)
    (hs : side a.node = true) (hnext : left.handle a = .inl next) :
    ∃ next', right.handle a = .inl next'
      ∧ next'.director.only side = next.director.only side ∧ next'.stack = next.stack := by
  have hmoment : (right.moment a).only side = (left.moment a).only side := by
    simp only [Moment.only, moment, h.only, hstack]
  have houtcome : (right.moment a).outcome.map id (Director.only side)
      = (left.moment a).outcome.map id (Director.only side) := by
    rw [← Moment.only_outcome h.alone apart hu hs, ← Moment.only_outcome h.both apart hu hs,
      hmoment]
  rw [handle_eq] at hnext ⊢
  generalize (left.moment a).outcome = outcome at hnext houtcome
  generalize (right.moment a).outcome = outcome' at houtcome ⊢
  obtain ⟨fate, director⟩ := outcome
  obtain ⟨fate', director'⟩ := outcome'
  obtain ⟨rfl, hdirector⟩ := Prod.mk.inj houtcome
  cases fate' with
  | discarded =>
    cases hnext
    exact ⟨_, rfl, hdirector, hstack⟩
  | faulted reason => cases hnext
  | unwound text => cases hnext
  | failed =>
    cases hnext
    exact ⟨_, rfl, hdirector, hstack⟩
  | completed effects =>
    cases hnext
    refine ⟨_, rfl, ?_, ?_⟩
    · simp only [schedule_director, Director.only_carry, accept, hdirector, hstack]
    · simp only [schedule_stack, accept, hstack]

theorem handle_only_of_not {drain next : Drain Standard} {a : Activation}
    (h : start.Follows drain.director.script) (hs : side a.node = false)
    (hnext : drain.handle a = .inl next) :
    next.director.only side = drain.director.only side := by
  have hcall := Moment.only_outcome_of_not (m := drain.moment a) h apart hs (goes_of_handle hnext)
  have hcarried : (drain.moment a).carried.filter (side ·.node) = [] := by
    refine List.filter_eq_nil_iff.2 fun b hb => ?_
    rw [Moment.side_of_scheduled (m := drain.moment a) h apart hu b (List.mem_append_left _ hb)]
    exact Bool.eq_false_iff.1 hs
  have hwave := (handles_of_handle hnext).nextWave
  have hdirector : next.director =
      { (drain.moment a).outcome.2 with nextWave := next.director.nextWave } := by
    rw [handle_eq] at hnext
    generalize (drain.moment a).outcome = outcome at hnext
    obtain ⟨fate, director⟩ := outcome
    cases fate <;> cases hnext <;> first | rfl | rw [schedule_director]; rfl
  calc next.director.only side
      = { (drain.moment a).outcome.2.only side with
          nextWave := next.director.nextWave.filter (side ·.node) } :=
        congrArg (Director.only side) hdirector
    _ = drain.director.only side := by
        rw [hcall, hwave, List.filter_append, hcarried, List.append_nil]
        rfl

/-- What a call adds to the frames is of the side of its node. -/
theorem side_of_frames {drain next : Drain Standard} {a : Activation}
    (h : start.Follows drain.director.script) (hh : drain.Handles a next)
    (hs : ∀ b ∈ drain.stack.flatten, side b.node = side a.node) :
    ∀ b ∈ next.stack.flatten, side b.node = side a.node := by
  intro b hb
  rcases List.mem_append.1 (hh.frames.mem_iff.1 hb) with hb | hb
  · exact hs b hb
  · exact Moment.side_of_scheduled (m := drain.moment a) h apart hu b (List.mem_append_right _ hb)

end handling

theorem follows_handle {drain next : Drain Standard} {a : Activation}
    (h : start.Follows drain.director.script) (hnext : drain.handle a = .inl next) :
    start.Follows next.director.script := by
  have hscript := drain.handle_script a
  rw [hnext, Sum.elim_inl] at hscript
  rw [hscript]
  exact Moment.follows (m := drain.moment a) h (goes_of_handle hnext)

namespace Beside

variable {both alone : Drain Standard} (h : both.Beside start side alone)

include h

theorem next? {rest : Drain Standard} {a : Activation} (hn : both.next? = some (a, rest)) :
    side a.node = true ∧ (∃ rest', alone.next? = some (a, rest') ∧ rest'.stack = rest.stack
        ∧ rest.Beside start side rest')
      ∨ side a.node = false ∧ alone.stack = [] ∧ rest.Beside start side alone := by
  obtain ⟨hdirector, hwave, hstack⟩ := h
  unfold Drain.next? at hn
  split at hn <;> cases hn
  · rename_i frame stack hframes
    rw [hframes] at hstack
    rcases hstack with ⟨hsame, hon⟩ | ⟨hnone, hoff⟩
    · have hrest : ∀ b ∈ (frame :: stack).flatten, side b.node = true :=
        fun b hb => hon b (List.mem_cons_of_mem _ hb)
      refine .inl ⟨hon a List.mem_cons_self, { alone with stack := frame :: stack }, ?_, rfl,
        hdirector, hwave, .inl ⟨rfl, hrest⟩⟩
      simp [Drain.next?, hsame]
    · have hrest : ∀ b ∈ (frame :: stack).flatten, side b.node = false :=
        fun b hb => hoff b (List.mem_cons_of_mem _ hb)
      exact .inr ⟨hoff a List.mem_cons_self, hnone, hdirector, hwave, .inr ⟨hnone, hrest⟩⟩
  · rename_i wave hframes hqueue
    rw [hframes] at hstack
    have hnone : alone.stack = [] := hstack.elim (·.1) (·.1)
    rw [hqueue, List.filter_cons] at hwave
    rcases hs : side a.node with _ | _
    · rw [hs, if_neg Bool.false_ne_true] at hwave
      refine .inr ⟨rfl, hnone, hdirector, hwave, ?_⟩
      rw [hframes]
      exact .inl ⟨hnone, List.forall_mem_nil _⟩
    · rw [hs, if_pos rfl] at hwave
      refine .inl ⟨rfl, { alone with wave := wave.filter (side ·.node) }, ?_, ?_, hdirector, rfl,
        ?_⟩
      · simp [Drain.next?, hnone, hwave]
      · rw [hframes]
        exact hnone
      · rw [hframes]
        exact .inl ⟨hnone, List.forall_mem_nil _⟩

variable (apart : start.Apart side) (hu : start.Unlinked)

include apart hu

theorem handle {a : Activation} (hstack : alone.stack = both.stack) (hs : side a.node = true)
    {next : Drain Standard} (hnext : both.handle a = .inl next) :
    ∃ next', alone.handle a = .inl next' ∧ next.Beside start side next' := by
  obtain ⟨next', hnext', honly, hframes⟩ := handle_only apart hu h.director hstack hs hnext
  have hleft := handles_of_handle hnext
  have hright := handles_of_handle hnext'
  refine ⟨next', hnext', ⟨honly, fun b hb => ?_, follows_handle h.director.both hnext,
    follows_handle h.director.alone hnext'⟩, ?_, .inl ⟨hframes, ?_⟩⟩
  · have hwaits := h.director.queued
    rw [Director.queued] at hwaits
    rw [Director.queued, hright.nextWave, hright.injected] at hb
    rcases List.mem_append.1 hb with hb | hb
    · rcases List.mem_append.1 hb with hb | hb
      · exact hwaits b (List.mem_append_left _ hb)
      · exact (Moment.side_of_scheduled (m := alone.moment a) h.director.alone apart hu b
          (List.mem_append_left _ hb)).trans hs
    · exact hwaits b (List.mem_append_right _ hb)
  · rw [hleft.wave, hright.wave, h.wave]
  · rw [← hs]
    refine side_of_frames apart hu h.director.both hleft fun b hb => ?_
    rcases h.stack with ⟨-, hon⟩ | ⟨hnone, -⟩
    · rw [hon b hb, hs]
    · rw [← hstack, hnone] at hb
      cases hb

theorem handle_of_not {a : Activation} (hnone : alone.stack = []) (hs : side a.node = false)
    {next : Drain Standard} (hnext : both.handle a = .inl next) :
    next.Beside start side alone := by
  have hleft := handles_of_handle hnext
  have honly := handle_only_of_not apart hu h.director.both hs hnext
  refine ⟨⟨h.director.only.trans honly.symm, h.director.queued,
    follows_handle h.director.both hnext, h.director.alone⟩, hleft.wave ▸ h.wave,
    .inr ⟨hnone, ?_⟩⟩
  rw [← hs]
  refine side_of_frames apart hu h.director.both hleft fun b hb => ?_
  rcases h.stack with ⟨hsame, -⟩ | ⟨-, hoff⟩
  · rw [← hsame, hnone] at hb
    cases hb
  · rw [hoff b hb, hs]

/-- A step of the tick is one of the other tick as well, or is not seen there. -/
theorem step {next : Drain Standard} (hstep : both.step = .inl next) :
    next.Beside start side alone
      ∨ ∃ next', alone.step = .inl next' ∧ next.Beside start side next' := by
  rcases hn : both.next? with _ | ⟨a, rest⟩
  · rcases step_of_next?_none hn with ⟨stack, hframes, hclose⟩ | ⟨-, -, hfinish⟩
    · rw [hclose] at hstep
      cases hstep
      rcases h.stack with ⟨hsame, hon⟩ | ⟨hnone, hoff⟩
      · rw [hframes] at hsame hon
        refine .inr ⟨{ alone with stack := stack }, ?_, h.director, h.wave, .inl ⟨rfl, hon⟩⟩
        simp only [Drain.step, hsame]
      · rw [hframes] at hoff
        exact .inl ⟨h.director, h.wave, .inr ⟨hnone, hoff⟩⟩
    · rw [hfinish] at hstep
      cases hstep
  · rw [step_of_next?_some hn] at hstep
    rcases h.next? hn with ⟨hs, rest', hn', hstack, hrest⟩ | ⟨hs, hnone, hrest⟩
    · obtain ⟨next', hnext', hbeside⟩ := hrest.handle apart hu hstack hs hstep
      exact .inr ⟨next', (step_of_next?_some hn').trans hnext', hbeside⟩
    · exact .inl (hrest.handle_of_not apart hu hnone hs hstep)

omit apart hu in
theorem finish : both.finish.2.Beside start side alone.finish.2 := by
  have honly : ∀ drain : Drain Standard, drain.finish.2.only side =
      { drain.director.only side with phase := .idle } := by
    intro drain
    simp [Drain.finish, Director.only, Director.observe, Observation.only, List.filterMap_cons]
  refine ⟨?_, h.director.queued, h.director.both, h.director.alone⟩
  rw [honly, honly, h.director.only]

end Beside

theorem Beside.run (apart : start.Apart side) (hu : start.Unlinked) {config : Config}
    (caught : config.catchPanics = true) : ∀ (fuel : Nat) {both alone : Drain Standard},
      both.Beside start side alone → both.Sane config → ∀ {ending : Ending Standard},
        both.run fuel = some ending → ∃ ending', alone.run fuel = some ending'
          ∧ ending.2.Beside start side ending'.2
          ∧ ending.2.script.Manned ∧ ending.2.config = config
  | 0, _, _, _, _, _, hrun => by simp [Drain.run] at hrun
  | fuel + 1, both, alone, h, hsane, ending, hrun => by
    rw [Drain.run] at hrun
    rcases hstep : both.step with next | last
    · simp only [hstep] at hrun
      rcases h.step apart hu hstep with hbeside | ⟨next', hstep', hbeside⟩
      · obtain ⟨ending', hrun', hends⟩ := run apart hu caught fuel hbeside (hsane.step hstep) hrun
        exact ⟨ending', run_add fuel 1 hrun', hends⟩
      · obtain ⟨ending', hrun', hends⟩ := run apart hu caught fuel hbeside (hsane.step hstep) hrun
        refine ⟨ending', ?_, hends⟩
        rw [Drain.run, hstep']
        exact hrun'
    · simp only [hstep] at hrun
      obtain ⟨hstack, hwave, rfl⟩ := hsane.finishes caught hstep
      obtain rfl := Option.some.inj hrun
      have hnone : alone.stack = [] := h.stack.elim (fun hs => hs.1.trans hstack) (·.1)
      have hover : alone.wave = [] := by rw [h.wave, hwave, List.filter_nil]
      refine ⟨alone.finish, ?_, h.finish, hsane.manned, hsane.config⟩
      rw [Drain.run, Drain.step, hnone]
      simp only [hover]

end Drain

/-! ## Runs of a host -/

/-- Every node is of the catalog and has its behavior in place. -/
structure Script.IsStandard (script : Script Standard) : Prop where
  genuine (id : NodeId) (node : Node Standard) : script.node? id = some node → node.Genuine
  manned : script.Manned

/-- It suffices that each node has the shape and the behavior that the registry gives for its type
alone. -/
theorem Script.IsStandard.of_registry {script : Script Standard}
    (h : script.nodes.map (fun node => some (node.shape, node.behavior)) =
      script.nodes.map fun node =>
        (Keyed.get? Standard.registry.factories node.type).map fun factory =>
          ((factory []).shape, some (factory []).behavior)) : script.IsStandard := by
  have created : ∀ id node, script.node? id = some node → ∃ factory,
      (node.type, factory) ∈ Standard.catalog ∧ node.shape = (factory []).shape
        ∧ node.behavior = some (factory []).behavior := by
    intro id node hn
    have hsame := List.map_inj_left.1 h node (List.mem_of_find?_eq_some hn)
    obtain ⟨factory, hf, hparts⟩ := Option.map_eq_some_iff.1 hsame.symm
    obtain ⟨hshape, hbehavior⟩ := Prod.mk.inj hparts
    exact ⟨factory, Standard.mem_catalog_of_get? hf, hshape.symm, hbehavior.symm⟩
  refine ⟨fun id node hn => ?_, fun id node hn => ?_⟩
  · obtain ⟨factory, hmem, hshape, hbehavior⟩ := created id node hn
    refine ⟨_, hmem, [], hshape, fun behavior hb => ?_⟩
    obtain rfl := Option.some.inj (hbehavior.symm.trans hb)
    exact (Standard.standing_of_mem_catalog _ hmem []).blank
  · obtain ⟨factory, -, -, hbehavior⟩ := created id node hn
    rw [hbehavior]
    rfl

/-- What a host injects before a tick, and the deltas of the tick. -/
structure Round where
  activations : List Activation
  sim : Float
  real : Float

/-- The round with the activations of one side only. -/
def Round.only (side : NodeId → Bool) (round : Round) : Round :=
  { round with activations := round.activations.filter (side ·.node) }

namespace Director

/-- Injects and updates, round after round; `none` when a tick takes more than `fuel` steps. -/
def play {β : Type} [Behavior β] (fuel : Nat) : List Round → Director β → Option (Director β)
  | [], director => some director
  | round :: rounds, director =>
    ((director.inject round.activations).update fuel round.sim round.real).bind fun ending =>
      ending.2.play fuel rounds

/-- The director in which only activations of one side wait. -/
def awaiting {β : Type} (side : NodeId → Bool) (director : Director β) : Director β :=
  { director with
    nextWave := director.nextWave.filter (side ·.node)
    injected := director.injected.filter (side ·.node) }

namespace Beside

variable {both alone : Director Standard} (h : both.Beside start side alone)

include h

theorem inject (more : List Activation) :
    (both.inject more).Beside start side (alone.inject (more.filter (side ·.node))) := by
  have honly : ∀ (director : Director Standard) (more : List Activation),
      (director.inject more).only side =
        (director.only side).inject (more.filter (side ·.node)) := by
    intro director more
    simp only [Director.inject, Director.only, List.filter_append]
  refine ⟨?_, fun a ha => ?_, h.both, h.alone⟩
  · rw [honly, honly, h.only, List.filter_filter]
    simp only [Bool.and_self]
  · rw [Director.queued, Director.inject, ← List.append_assoc] at ha
    rcases List.mem_append.1 ha with ha | ha
    · exact h.queued a ha
    · exact (List.mem_filter.1 ha).2

/-- What waits in the second director is what waits in the first one and is of this side. -/
theorem wave : alone.queued = both.queued.filter (side ·.node) := by
  have honly : ∀ director : Director Standard,
      (director.only side).queued = director.queued.filter (side ·.node) :=
    fun director => (List.filter_append _ _).symm
  rw [← honly, ← h.only, honly, List.filter_eq_self.2 h.queued]

theorem begin (sim real : Float) :
    (both.begin sim real).Beside start side (alone.begin sim real) := by
  have honly : ∀ director : Director Standard, (director.begin sim real).director.only side =
      ((director.only side).begin sim real).director := by
    intro director
    simp [Director.begin, Director.only, Director.observe, Observation.only]
  refine ⟨⟨?_, List.forall_mem_nil _, h.both, h.alone⟩, h.wave, .inl ⟨rfl, List.forall_mem_nil _⟩⟩
  rw [honly, honly, h.only]

variable (apart : start.Apart side) (hu : start.Unlinked)

include apart hu

theorem update (manned : both.script.Manned) (caught : both.config.catchPanics = true)
    {fuel : Nat} {sim real : Float} {ending : Ending Standard}
    (hupdate : both.update fuel sim real = some ending) :
    ∃ ending', alone.update fuel sim real = some ending' ∧ ending.2.Beside start side ending'.2
      ∧ ending.2.script.Manned ∧ ending.2.config = both.config := by
  have hfault := (congrArg Director.fault h.only :)
  simp only [Director.only] at hfault
  unfold Director.update at hupdate ⊢
  rw [hfault]
  rcases hf : both.fault with _ | reason
  · simp only [hf] at hupdate
    exact (h.begin sim real).run apart hu caught fuel ⟨manned, hf, rfl⟩ hupdate
  · simp only [hf] at hupdate
    obtain rfl := Option.some.inj hupdate
    exact ⟨_, rfl, h, manned, rfl⟩

end Beside

theorem Beside.play (apart : start.Apart side) (hu : start.Unlinked) {fuel : Nat} :
    ∀ (rounds : List Round) {both alone after : Director Standard},
      both.Beside start side alone → both.script.Manned → both.config.catchPanics = true →
      both.play fuel rounds = some after →
      ∃ after', alone.play fuel (rounds.map (·.only side)) = some after'
        ∧ after.Beside start side after'
  | [], _, alone, _, h, _, _, hplay => by
    obtain rfl := Option.some.inj hplay
    exact ⟨alone, rfl, h⟩
  | round :: rounds, both, alone, after, h, manned, caught, hplay => by
    obtain ⟨ending, hupdate, hplay⟩ := Option.bind_eq_some_iff.1 hplay
    obtain ⟨ending', hupdate', hbeside, hmanned, hconfig⟩ :=
      (h.inject round.activations).update apart hu manned caught hupdate
    have hcaught : ending.2.config.catchPanics = true := by
      rw [hconfig]
      exact caught
    obtain ⟨after', hplay', hafter⟩ := play apart hu rounds hbeside hmanned hcaught hplay
    exact ⟨after', Option.bind_eq_some_iff.2 ⟨ending', hupdate', hplay'⟩, hafter⟩

/-- Chains that nothing connects do not interfere. If a host injects activations of both sides,
panics are caught and all its ticks come to an end, then the same ticks with the activations of one
side only come to an end as well, with the same calls of this side in the same ticks and at the same
depths, the same nodes on this side, and the same messages from it. -/
theorem play_only (director : Director Standard) (standard : director.script.IsStandard)
    (apart : director.script.Apart side) (caught : director.config.catchPanics = true) {fuel : Nat}
    {rounds : List Round} {after : Director Standard}
    (played : director.play fuel rounds = some after) :
    ∃ alone, (director.awaiting side).play fuel (rounds.map (·.only side)) = some alone
      ∧ alone.seen.filterMap (Observation.only side) = after.seen.filterMap (Observation.only side)
      ∧ (∀ id, side id = true → alone.script.node? id = after.script.node? id)
      ∧ alone.bridge.log.messages.filter (side ·.node)
        = after.bridge.log.messages.filter (side ·.node) := by
  have hstart : director.script.Follows director.script := ⟨.refl _, .refl _⟩
  have hawaits : director.Beside director.script side (director.awaiting side) := by
    refine ⟨?_, fun a ha => ?_, hstart, hstart⟩
    · simp only [only, awaiting, List.filter_filter, Bool.and_self]
    · rw [queued, awaiting, ← List.filter_append] at ha
      exact (List.mem_filter.1 ha).2
  obtain ⟨alone, hplay, h⟩ :=
    hawaits.play apart (Script.unlinked_of_genuine standard.genuine) rounds standard.manned caught
      played
  have hmessages : ∀ bridge : Bridge,
      (bridge.only side).log.messages = bridge.log.messages.filter (side ·.node) := by
    intro bridge
    cases bridge <;> rfl
  refine ⟨alone, hplay, ?_, fun id hs => ?_, ?_⟩
  · have htold := congrArg Director.told h.only
    rw [seen, seen, List.filterMap_reverse, List.filterMap_reverse]
    exact congrArg List.reverse htold
  · have hnode : ∀ director : Director Standard,
        (director.only side).script.node? id = director.script.node? id :=
      fun director => Script.node?_only_of hs
    rw [← hnode alone, h.only, hnode]
  · have hbridge := congrArg (·.bridge.log.messages) h.only
    rw [← hmessages, ← hmessages]
    exact hbridge

/-- A loop with its body and its end, and a remote call with what its event leads to. -/
def duet : Director Standard where
  script := List.foldl Script.edit (Script.withRootName "root")
    [.addNode rootGraph Standard.forLoopNode, .addNode rootGraph (Standard.cell "Integer" (.int 1)),
      .addNode rootGraph Standard.sendMessageNode,
      .addNode rootGraph ((Standard.callRemoteEventNode.property eventNameProperty
        (.string "ping")).property "LocalOnly" (.bool false)),
      .addNode rootGraph (Standard.remoteEventNode.property eventNameProperty (.string "ping")),
      .addNode rootGraph Standard.sendMessageNode,
      .connectValue ⟨⟨0⟩, 1⟩ ⟨1⟩, .connect ⟨⟨0⟩, 0⟩ ⟨⟨2⟩, 0⟩, .connect ⟨⟨4⟩, 0⟩ ⟨⟨5⟩, 0⟩]
  bridge := .recording {}

/-- The host calls both, and then the body of the loop once more. -/
def duetRounds : List Round :=
  [⟨[{ node := ⟨3⟩, input := some 0 }, { node := ⟨0⟩, input := some 0 }], 0, 0⟩,
    ⟨[{ node := ⟨2⟩, input := some 0 }], 0, 0⟩, ⟨[], 0, 0⟩]

/-- The nodes of the loop. -/
def inLoop (id : NodeId) : Bool := id.raw < 3

theorem duet_apart : duet.script.Apart inLoop where
  toParted := .of_listed (by decide +kernel) (by decide +kernel)
  events id node name isLocal hn hb hname hlocal := by
    have hbehaviors : duet.script.nodes.map (fun node => (node.id, node.behavior)) =
        [(⟨0⟩, some (.forLoop 0)), (⟨1⟩, some .inert), (⟨2⟩, some .sendMessage),
          (⟨3⟩, some .callRemoteEvent), (⟨4⟩, some .fireOutputs), (⟨5⟩, some .sendMessage)] := rfl
    obtain rfl : id = ⟨3⟩ := by simpa using Script.behavior_listed hbehaviors hn hb
    have hgraph : ∀ node ∈ duet.script.nodes, node.graph = rootGraph := by decide +kernel
    have hping : (duet.script.property? ⟨3⟩ eventNameProperty).bind (·.asString?)
        = some "ping" := by decide +kernel
    have heverywhere : (duet.script.property? ⟨3⟩ "LocalOnly").bind (·.asBool?)
        = some false := by decide +kernel
    obtain rfl := Option.some.inj (hping.symm.trans hname)
    obtain rfl := Option.some.inj (heverywhere.symm.trans hlocal)
    rw [hgraph node (List.mem_of_find?_eq_some hn)]
    decide +kernel

/-- The remote call and what it leads to are not seen from the loop. -/
theorem play_only_of_duet : duet.script.Apart inLoop ∧ ∃ after alone,
    duet.play 30 duetRounds = some after
      ∧ (duet.awaiting inLoop).play 30 (duetRounds.map (·.only inLoop)) = some alone
      ∧ alone.seen.filterMap (Observation.only inLoop)
        = after.seen.filterMap (Observation.only inLoop)
      ∧ (∀ id, inLoop id = true → alone.script.node? id = after.script.node? id)
      ∧ after.bridge.log.messages.map (·.node) = [⟨2⟩, ⟨2⟩, ⟨2⟩, ⟨5⟩]
      ∧ alone.bridge.log.messages.filter (inLoop ·.node)
        = after.bridge.log.messages.filter (inLoop ·.node) := by
  have hsent : (duet.play 30 duetRounds).map (·.bridge.log.messages.map (·.node))
      = some [⟨2⟩, ⟨2⟩, ⟨2⟩, ⟨5⟩] := by decide +kernel
  obtain ⟨after, hplay, hafter⟩ := Option.map_eq_some_iff.1 hsent
  obtain ⟨alone, halone, hseen, hstate, hmessages⟩ :=
    play_only duet (.of_registry rfl) duet_apart rfl hplay
  exact ⟨duet_apart, after, alone, hplay, halone, hseen, hstate, hafter, hmessages⟩

end Director

end FlowScript
