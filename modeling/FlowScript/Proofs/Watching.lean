import FlowScript.Proofs.NextWave
import FlowScript.Proofs.Session
import Mathlib.Data.List.Basic
import Mathlib.Data.List.Induction

/-!
# What the watchers are told

A tick tells its watchers of its calls one after another, each with its failure at once. The report
counts the same calls (`sums_of_run`). Whatever happens, the trace takes in the records that the
watchers are told of and no others (`logs_update`), so it holds the latest of them.
-/

namespace FlowScript

variable {β : Type}

/-! ## The trace -/

namespace Trace

/-- The latest of the records; all of them if the capacity sets no limit. -/
def latest (capacity : Nat) (records : List Record) : List Record :=
  if capacity = 0 then records else records.drop (records.length - capacity)

theorem latest_concat (capacity : Nat) (records : List Record) (record : Record) :
    (Trace.mk capacity (latest capacity records)).add record =
      ⟨capacity, latest capacity (records ++ [record])⟩ := by
  rw [add, Trace.mk.injEq]
  refine ⟨rfl, ?_⟩
  rcases Nat.eq_zero_or_pos capacity with rfl | hpos
  · simp only [latest, Nat.lt_irrefl, false_and, ↓reduceIte]
  have hne : capacity ≠ 0 := Nat.pos_iff_ne_zero.1 hpos
  simp only [latest, hne, hpos, true_and, ↓reduceIte, List.length_drop, List.length_append,
    List.length_singleton]
  by_cases hfull : capacity ≤ records.length
  · rw [if_pos (by omega), List.tail_drop, List.drop_append_of_le_length (by omega)]
    congr 2
    omega
  · rw [if_neg (by omega), Nat.sub_eq_zero_of_le (by omega), Nat.sub_eq_zero_of_le (by omega),
      List.drop_zero, List.drop_zero]

theorem foldl_add (capacity : Nat) (records : List Record) :
    records.foldl add { capacity := capacity } = ⟨capacity, latest capacity records⟩ := by
  induction records using List.reverseRecOn with
  | nil => simp [latest]
  | append_singleton records record ih =>
    rw [List.foldl_append, ih, List.foldl_cons, List.foldl_nil, latest_concat]

end Trace

/-- The record of the call that is told of. -/
def Observation.record? : Observation → Option Record
  | .called record => some record
  | _ => none

namespace Director

/-- Whatever calls the watchers were told of in between went into the trace, in the same order. -/
def Logs (before after : Director β) : Prop :=
  ∃ more, after.seen = before.seen ++ more ∧ after.trace = before.trace.map fun trace =>
    (more.filterMap Observation.record?).foldl Trace.add trace

namespace Logs

variable {first second third : Director β}

theorem of_same (ht : second.told = first.told) (htrace : second.trace = first.trace) :
    first.Logs second := by
  refine ⟨[], ?_, ?_⟩
  · rw [List.append_nil, seen, seen, ht]
  · rw [htrace]
    exact Option.map_id'.symm

theorem refl (director : Director β) : director.Logs director := of_same rfl rfl

theorem trans (h : first.Logs second) (h' : second.Logs third) : first.Logs third := by
  obtain ⟨more, hseen, htrace⟩ := h
  obtain ⟨more', hseen', htrace'⟩ := h'
  refine ⟨more ++ more', by rw [hseen', hseen, List.append_assoc], ?_⟩
  rw [htrace', htrace, Option.map_map, List.filterMap_append]
  refine Option.map_congr fun trace _ => ?_
  rw [List.foldl_append]
  rfl

end Logs

theorem logs_observe (director : Director β) {observation : Observation}
    (h : observation.record? = none) : director.Logs (director.observe observation) := by
  refine ⟨[observation], seen_observe director observation, ?_⟩
  rw [List.filterMap_cons_none h]
  exact Option.map_id'.symm

theorem logs_observeCall (director : Director β) (record : Record) :
    director.Logs (director.observeCall record) :=
  ⟨[.called record], seen_observe director _, rfl⟩

theorem logs_settle (director : Director β) (turn : Turn β) (record : Record) (before : List Nat)
    (verdict : Verdict) (behavior : β) :
    director.Logs (director.settle turn record before verdict behavior).2 := by
  have withdrawn : ∀ error, director.Logs (director.withdraw record behavior before error).2 := by
    intro error
    rcases director.withdraw_cases record behavior before error with ⟨reason, h⟩ | ⟨script, h⟩
    · rw [h]
      exact .of_same rfl rfl
    · rw [h]
      exact Logs.trans (.of_same rfl rfl) (logs_observe { director with script := script } rfl)
  unfold settle
  split
  · rename_i latent
    rcases director.complete_cases turn behavior latent with ⟨reason, h⟩ | ⟨_, script, -, h, -⟩ <;>
      rw [h] <;> exact .of_same rfl rfl
  · exact withdrawn _
  · split
    · exact withdrawn _
    · exact .refl director

variable [Behavior β]

theorem logs_outcome (m : Moment β) : m.director.Logs m.outcome.2 := by
  rcases ht : m.target? with _ | node
  · rw [Moment.outcome_of_target?_none ht]
    exact .refl _
  rcases hb : node.behavior with _ | behavior
  · rw [Moment.outcome_of_behavior_none ht hb]
    exact .of_same rfl rfl
  · rw [Moment.outcome_of_behavior ht hb]
    refine (m.director.logs_observeCall (m.record node)).trans ?_
    exact Logs.trans (.of_same rfl rfl) (logs_settle _ _ _ _ _ _)

end Director

namespace Drain

variable [Behavior β]

theorem logs_handle (drain : Drain β) (a : Activation) :
    drain.director.Logs ((drain.handle a).elim (·.director) (·.2)) := by
  have hlogs := Director.logs_outcome (drain.moment a)
  rw [handle_eq]
  generalize (drain.moment a).outcome = outcome at hlogs ⊢
  obtain ⟨fate, director⟩ := outcome
  cases fate with
  | completed effects =>
    rw [Sum.elim_inl, schedule_director]
    exact Director.Logs.trans hlogs (.of_same rfl rfl)
  | _ => exact hlogs

theorem logs_step (drain : Drain β) :
    drain.director.Logs (drain.step.elim (·.director) (·.2)) := by
  rcases hn : drain.next? with _ | ⟨a, rest⟩
  · rcases step_of_next?_none hn with ⟨stack, -, hstep⟩ | ⟨-, -, hstep⟩ <;> rw [hstep]
    · exact .refl _
    · exact Director.Logs.trans (.of_same rfl rfl)
        (Director.logs_observe { drain.director with phase := .idle } rfl)
  · rw [step_of_next?_some hn, ← (next?_eq_some hn).1]
    exact rest.logs_handle a

theorem logs_run : ∀ (fuel : Nat) (drain : Drain β) {ending : Ending β},
    drain.run fuel = some ending → drain.director.Logs ending.2
  | 0, drain, ending, h => by simp [run] at h
  | fuel + 1, drain, ending, h => by
    have hlogs := drain.logs_step
    rw [run] at h
    rcases hs : drain.step with next | ending' <;> rw [hs] at h hlogs
    · exact hlogs.trans (logs_run fuel next h)
    · obtain rfl := Option.some.inj h
      exact hlogs

end Drain

/-- The move replaces the settings. -/
def Move.Configures : Move β → Prop
  | .configure _ => True
  | _ => False

namespace Director

theorem logs_update [Behavior β] {director after : Director β} {fuel : Nat} {sim real : Float}
    {ending : Except Halt Report} (h : director.update fuel sim real = some (ending, after)) :
    director.Logs after := by
  unfold update at h
  split at h
  · obtain ⟨-, rfl⟩ := Prod.mk.inj (Option.some.inj h)
    exact .refl _
  · -- The tick begins by telling so, which the trace does not take in.
    have hbegan : director.Logs (director.begin sim real).director :=
      ⟨[.tickBegan (director.clock.advance sim real).tick], seen_observe _ _, Option.map_id'.symm⟩
    exact hbegan.trans (Drain.logs_run fuel (director.begin sim real) h)

theorem logs_move (director : Director β) {move : Move β} (h : ¬ move.Configures) :
    director.Logs (director.move move) := by
  cases move with
  | enqueue activation =>
    obtain ⟨more, hmore⟩ := director.enqueue_injects activation
    rw [Director.move, hmore]
    exact .of_same rfl rfl
  | triggerInput graph node input =>
    obtain ⟨more, hmore⟩ := director.triggerInput_injects graph node input
    rw [Director.move, hmore]
    exact .of_same rfl rfl
  | configure config => exact absurd trivial h
  | _ => exact .of_same rfl rfl

theorem Session.logs [Behavior β] {start director : Director β}
    (h : start.Session (¬ ·.Configures) director) : start.Logs director := by
  induction h with
  | start => exact .refl _
  | move move permitted session ih => exact ih.trans (logs_move _ permitted)
  | tick session updated ih => exact ih.trans (logs_update updated)

end Director

/-! ## The calls of a tick -/

/-- What the watchers learn of a call: its record and, if it failed, its failure. -/
structure Sighting where
  record : Record
  failure : Option NodeError

/-- The failure is told right after the record. -/
def Sighting.observations (call : Sighting) : List Observation :=
  .called call.record :: (call.failure.map (.failed call.record)).toList

theorem Sighting.filterMap_record? (calls : List Sighting) :
    (calls.flatMap observations).filterMap Observation.record? = calls.map (·.record) := by
  rw [List.filterMap_flatMap, List.map_eq_flatMap]
  refine List.flatMap_congr fun call _ => ?_
  rw [observations]
  rcases call.failure with _ | error <;> rfl

variable [Behavior β]

def Moment.sighting? (m : Moment β) : Option Sighting :=
  m.target?.bind fun node => m.call?.map fun call => ⟨m.record node, call.error?⟩

theorem Moment.observations_eq (m : Moment β) :
    m.observations = m.sighting?.toList.flatMap Sighting.observations := by
  unfold observations sighting?
  rcases m.target? with _ | node
  · rfl
  rcases m.call? with _ | call
  · rfl
  · exact (List.append_nil _).symm

namespace Drain

/-- The calls are in order, and with them the counts of the tick come to those of the report. -/
structure Sums (drain : Drain β) (calls : List Sighting) (report : Report) : Prop where
  tick : report.tick = drain.report.tick
  invoked : report.invoked = drain.report.invoked + calls.length
  failed : report.failed = drain.report.failed + calls.countP (·.failure.isSome)
  latent : report.latent + report.failed ≤
    drain.report.latent + drain.report.failed + calls.length
  deeper : drain.report.maxDepth ≤ report.maxDepth
  each : ∀ i call, calls[i]? = some call → call.record.order = drain.report.invoked + i
    ∧ call.record.tick = drain.director.clock.tick ∧ call.record.depth ≤ report.maxDepth

/-- What the handling of an activation adds to the counts of the tick. -/
theorem Handles.report {drain next : Drain β} {a : Activation} (h : drain.Handles a next) :
    next.director.clock = drain.director.clock ∧
      match (drain.moment a).sighting? with
      | none => next.report = { drain.deepened with discarded := drain.report.discarded + 1 }
      | some call => call.record.order = drain.report.invoked
        ∧ call.record.tick = drain.director.clock.tick ∧ call.record.depth = drain.stack.length
        ∧ ∃ latent : Bool, latent.toNat + call.failure.isSome.toNat ≤ 1
          ∧ next.report = { drain.deepened with
              invoked := drain.report.invoked + 1
              failed := drain.report.failed + call.failure.isSome.toNat
              latent := drain.report.latent + latent.toNat } := by
  unfold Moment.sighting?
  cases h with
  | discarded target =>
    rw [target]
    exact ⟨rfl, rfl⟩
  | failed node call script error target made verdict fate =>
    rw [target, made, Option.bind_some, Option.map_some]
    refine ⟨rfl, rfl, rfl, rfl, false, ?_, ?_⟩ <;> simp only [verdict]
    · exact Nat.le_refl 1
    · rfl
  | completed node call script latent target made verdict after spent =>
    rw [target, made, Option.bind_some, Option.map_some, schedule_director, schedule_report]
    have herror : call.error? = none := by rw [Call.error?, verdict]
    refine ⟨rfl, rfl, rfl, rfl, latent, ?_, ?_⟩ <;> simp only [herror]
    · exact Bool.toNat_le latent
    · rcases latent <;> rfl

theorem Handles.sums {drain next : Drain β} {a : Activation} {calls : List Sighting}
    {report : Report} (h : drain.Handles a next) (hs : next.Sums calls report) :
    drain.Sums ((drain.moment a).sighting?.toList ++ calls) report := by
  obtain ⟨hclock, hreport⟩ := h.report
  obtain ⟨htick, hinvoked, hfailed, hlatent, hdeeper, heach⟩ := hs
  have hdepth : drain.report.maxDepth ≤ drain.deepened.maxDepth
      ∧ drain.stack.length ≤ drain.deepened.maxDepth := ⟨Nat.le_max_left _ _, Nat.le_max_right _ _⟩
  rw [hclock] at heach
  rcases hcall : (drain.moment a).sighting? with _ | call <;> simp only [hcall] at hreport
  · -- An activation that is discarded makes no call, but its depth counts.
    simp only [hreport] at htick hinvoked hfailed hlatent hdeeper heach
    exact ⟨htick, hinvoked, hfailed, hlatent, Nat.le_trans hdepth.1 hdeeper, heach⟩
  · obtain ⟨horder, hrecord, hopen, latent, hone, hreport⟩ := hreport
    simp only [hreport] at htick hinvoked hfailed hlatent hdeeper heach
    simp only [Option.toList_some, List.singleton_append]
    have hcount : (call :: calls).countP (·.failure.isSome) =
        calls.countP (·.failure.isSome) + call.failure.isSome.toNat := by
      rw [List.countP_cons]
      rcases call.failure.isSome <;> rfl
    refine ⟨htick, ?_, ?_, ?_, Nat.le_trans hdepth.1 hdeeper, fun i call' hi => ?_⟩
    · rw [hinvoked, List.length_cons]
      omega
    · rw [hfailed, hcount]
      omega
    · rw [List.length_cons]
      omega
    · -- Only the record of this call is new; the others come after it.
      rcases i with _ | i
      · obtain rfl := Option.some.inj hi
        exact ⟨horder, hrecord, hopen ▸ Nat.le_trans hdepth.2 hdeeper⟩
      · obtain ⟨horder', hrecord', hdepth'⟩ := heach i call' hi
        exact ⟨by omega, hrecord', hdepth'⟩

/-- A tick that ends well reports its calls as its watchers saw them. -/
theorem sums_of_run {fuel : Nat} {drain : Drain β} {report : Report} {after : Director β}
    (h : drain.run fuel = some (.ok report, after)) :
    drain.Sums ((drain.history fuel).filterMap Moment.sighting?) report
      ∧ after.clock = drain.director.clock := by
  refine run_induction (motive := fun drain history report after =>
    drain.Sums (history.filterMap Moment.sighting?) report
      ∧ after.clock = drain.director.clock) ?_ ?_ ?_ _ _ _ _ h
  · intro drain _ _ report after hf
    obtain ⟨hreport, rfl⟩ := Prod.mk.inj hf
    obtain rfl := Except.ok.inj hreport
    exact ⟨⟨rfl, rfl, rfl, Nat.le_refl _, Nat.le_refl _, nofun⟩, rfl⟩
  · intro drain stack history report after _ ih
    exact ⟨⟨ih.1.tick, ih.1.invoked, ih.1.failed, ih.1.latent, ih.1.deeper, ih.1.each⟩, ih.2⟩
  · intro drain rest next a history report after hn hh ih
    have hsums := hh.sums ih.1
    obtain ⟨hdirector, hreport, -⟩ := next?_eq_some hn
    have hlist : (rest.moment a :: history).filterMap Moment.sighting? =
        (rest.moment a).sighting?.toList ++ history.filterMap Moment.sighting? := by
      rw [List.filterMap_cons]
      rcases (rest.moment a).sighting? with _ | call <;> rfl
    rw [hlist]
    obtain ⟨htick, hinvoked, hfailed, hlatent, hdeeper, heach⟩ := hsums
    rw [hreport] at htick hinvoked hfailed hlatent hdeeper heach
    rw [hdirector] at heach
    exact ⟨⟨htick, hinvoked, hfailed, hlatent, hdeeper, heach⟩,
      by rw [ih.2, hh.report.1, hdirector]⟩

end Drain

namespace Director

/-- The calls of a tick as its watchers learn of them. -/
def sightings (fuel : Nat) (sim real : Float) (director : Director β) : List Sighting :=
  (director.history fuel sim real).filterMap Moment.sighting?

/-- After a tick the report, the watchers and the trace agree. The watchers were told of the tick,
then of its calls in order, each with its failure at once, and then of the report, which counts
these calls, those that failed and how deep they went. The trace took in the same records, and from
the settings on it holds the latest ones of all that the watchers were told of. -/
theorem update_watched {director after : Director β} {fuel : Nat} {sim real : Float}
    {report : Report} (h : director.update fuel sim real = some (.ok report, after)) :
    after.seen = director.seen ++ .tickBegan after.clock.tick
        :: (director.sightings fuel sim real).flatMap Sighting.observations ++ [.tickEnded report]
      ∧ after.clock = director.clock.advance sim real ∧ report.tick = after.clock.tick
      ∧ (director.sightings fuel sim real).length = report.invoked
      ∧ (∀ i (call : Sighting), (director.sightings fuel sim real)[i]? = some call →
        call.record.order = i ∧ call.record.tick = report.tick
          ∧ call.record.depth ≤ report.maxDepth)
      ∧ (director.sightings fuel sim real).countP (·.failure.isSome) = report.failed
      ∧ report.latent + report.failed ≤ report.invoked
      ∧ (after.trace = director.trace.map fun trace =>
        ((director.sightings fuel sim real).map (·.record)).foldl Trace.add trace)
      ∧ ∀ (start : Director β) (config : Config),
        (start.withConfig config).Session (¬ ·.Configures) director →
          ∃ more, after.seen = start.seen ++ more
            ∧ after.trace = if config.recordTrace then
                some ⟨config.traceCapacity,
                  Trace.latest config.traceCapacity (more.filterMap Observation.record?)⟩
              else none := by
  obtain ⟨hrun, hhistory⟩ := run_of_update h
  obtain ⟨-, -, hrest⟩ := Drain.queues_of_run hrun
  have hsums : (director.begin sim real).Sums (director.sightings fuel sim real) report
      ∧ after.clock = director.clock.advance sim real := by
    rw [sightings, hhistory]
    exact Drain.sums_of_run hrun
  obtain ⟨⟨htick, hinvoked, hfailed, hlatent, -, heach⟩, hclock⟩ := hsums
  simp only [begin, observe, Nat.zero_add] at htick hinvoked hfailed hlatent heach
  have hseen : after.seen = director.seen ++ .tickBegan after.clock.tick
      :: (director.sightings fuel sim real).flatMap Sighting.observations
        ++ [.tickEnded report] := by
    have hbegan : (director.begin sim real).director.seen
        = director.seen ++ [.tickBegan after.clock.tick] := by
      rw [hclock]
      exact seen_observe _ _
    have hcalls : (director.history fuel sim real).flatMap Moment.observations =
        (director.sightings fuel sim real).flatMap Sighting.observations := by
      rw [sightings, List.filterMap_eq_flatMap_toList, List.flatMap_assoc]
      exact List.flatMap_congr fun m _ => m.observations_eq
    rw [hrest, hbegan, ← hhistory, hcalls, List.append_assoc director.seen, List.singleton_append]
  refine ⟨hseen, hclock, by rw [htick, hclock], hinvoked.symm, fun i call hi => ?_, hfailed.symm,
    by omega, ?_, fun start config session => ?_⟩
  · obtain ⟨horder, hrecord, hdepth⟩ := heach i call hi
    exact ⟨horder, by rw [hrecord, htick], hdepth⟩
  · obtain ⟨more, hmore, htrace⟩ := logs_update h
    rw [hmore, List.append_assoc, List.append_cancel_left_eq] at hseen
    rw [htrace, hseen, List.cons_append, List.filterMap_cons_none rfl, List.filterMap_append,
      Sighting.filterMap_record?]
    exact Option.map_congr fun trace _ => congrArg _ (List.append_nil _)
  · obtain ⟨more, hmore, htrace⟩ := session.logs.trans (logs_update h)
    refine ⟨more, hmore, ?_⟩
    rw [htrace, withConfig]
    split
    · rw [Option.map_some, Trace.foldl_add]
    · rfl

/-- A node that opens a frame and wants to be called again. -/
def openerNode : NodeBuilder Agent :=
  ((NodeBuilder.action (coreType "Opener") (.rules [{
    steps := [⟨"push", .pushOutput "Out", false⟩], latent := true }] 0)).input "In").output "Out"

/-- A node that fails. -/
def failingNode : NodeBuilder Agent :=
  (NodeBuilder.action (coreType "Failing") (.rules [{
    steps := [⟨"fail", .fail "no use", false⟩] }] 0)).input "In"

/-- How a host comes to call the first node twice. -/
def posting : List (Move Agent) :=
  [.edit (.addNode rootGraph openerNode), .edit (.addNode rootGraph failingNode),
    .edit (.connect ⟨⟨0⟩, 0⟩ ⟨⟨1⟩, 0⟩), .enqueue { node := ⟨0⟩, input := some 0 },
    .enqueue { node := ⟨0⟩, input := some 0 }]

/-- A director whose trace holds two records and that is about to make four calls. -/
def lookout : Director Agent :=
  posting.foldl move
    (withConfig { script := .withRootName "root" } (Config.withTrace {} 2))

/-- Each failure is told right after its call, and the trace holds the last two calls. -/
theorem update_watched_of_lookout : ∃ report after, lookout.update 9 0 0 = some (.ok report, after)
    ∧ report = { tick := 1, invoked := 4, failed := 2, latent := 2, carried := 2, maxDepth := 1 }
    ∧ after.seen = [.tickBegan 1, .called ⟨1, 0, rootGraph, ⟨0⟩, some 0, true, 0⟩,
      .called ⟨1, 1, rootGraph, ⟨1⟩, some 0, true, 1⟩,
      .failed ⟨1, 1, rootGraph, ⟨1⟩, some 0, true, 1⟩ (.custom "no use"),
      .called ⟨1, 2, rootGraph, ⟨0⟩, some 0, true, 0⟩,
      .called ⟨1, 3, rootGraph, ⟨1⟩, some 0, true, 1⟩,
      .failed ⟨1, 3, rootGraph, ⟨1⟩, some 0, true, 1⟩ (.custom "no use"), .tickEnded report]
    ∧ (lookout.sightings 9 0 0).length = report.invoked
    ∧ after.trace = some ⟨2, [⟨1, 2, rootGraph, ⟨0⟩, some 0, true, 0⟩,
      ⟨1, 3, rootGraph, ⟨1⟩, some 0, true, 1⟩]⟩ := by
  have hc : (lookout.update 9 0 0).map (fun ending => (ending.1.toOption, ending.2.seen)) =
      some (some { tick := 1, invoked := 4, failed := 2, latent := 2, carried := 2, maxDepth := 1 },
        [.tickBegan 1, .called ⟨1, 0, rootGraph, ⟨0⟩, some 0, true, 0⟩,
          .called ⟨1, 1, rootGraph, ⟨1⟩, some 0, true, 1⟩,
          .failed ⟨1, 1, rootGraph, ⟨1⟩, some 0, true, 1⟩ (.custom "no use"),
          .called ⟨1, 2, rootGraph, ⟨0⟩, some 0, true, 0⟩,
          .called ⟨1, 3, rootGraph, ⟨1⟩, some 0, true, 1⟩,
          .failed ⟨1, 3, rootGraph, ⟨1⟩, some 0, true, 1⟩ (.custom "no use"),
          .tickEnded
            { tick := 1, invoked := 4, failed := 2, latent := 2, carried := 2, maxDepth := 1 }]) := by
    decide +kernel
  have session : (withConfig { script := .withRootName "root" } (Config.withTrace {} 2)).Session
      (¬ ·.Configures) lookout := by
    refine Session.moves .start fun move hmove => ?_
    simp only [posting, List.mem_cons, List.not_mem_nil, or_false] at hmove
    rcases hmove with rfl | rfl | rfl | rfl | rfl <;> exact id
  rcases h : lookout.update 9 0 0 with _ | ⟨_ | report, after⟩ <;> rw [h] at hc
  · simp at hc
  · simp [Except.toOption] at hc
  obtain ⟨rfl, hseen⟩ : report = _ ∧ after.seen = _ := by simpa [Except.toOption] using hc
  obtain ⟨-, -, -, hcalls, -, -, -, -, htrace⟩ := update_watched h
  obtain ⟨more, hmore, htrace⟩ := htrace _ _ session
  obtain rfl : more = after.seen := hmore.symm
  refine ⟨_, after, rfl, rfl, hseen, hcalls, ?_⟩
  rw [htrace, hseen]
  rfl

end Director

end FlowScript
