import FlowScript.Proofs.Moment

/-!
# Forgetting how many frames were open

Each record says how many frames were open at its call, and a report says how many there were at
most. Nothing reads these numbers again, so handling an activation leads to the same when they are
forgotten (`outcome_congr`).
-/

namespace FlowScript

variable {β : Type}

/-- The record without its depth. -/
def Record.flat (record : Record) : Record := { record with depth := 0 }

/-- The report without the largest depth. -/
def Report.flat (report : Report) : Report := { report with maxDepth := 0 }

/-- The observation without depths. -/
def Observation.flat : Observation → Observation
  | .tickBegan tick => .tickBegan tick
  | .called record => .called record.flat
  | .failed record error => .failed record.flat error
  | .tickEnded report => .tickEnded report.flat

/-- The trace without depths. -/
def Trace.flat (trace : Trace) : Trace := { trace with records := trace.records.map .flat }

theorem Trace.flat_add (trace : Trace) (record : Record) :
    (trace.add record).flat = trace.flat.add record.flat := by
  unfold add flat
  split <;> rename_i h
  · rw [if_pos (by simpa using h)]
    simp
  · rw [if_neg (by simpa using h)]
    simp

namespace Director

/-- The director without depths in what it has told. -/
def flat (director : Director β) : Director β :=
  { director with
    trace := director.trace.map .flat
    told := director.told.map .flat }

theorem flat_observe (director : Director β) (observation : Observation) :
    (director.observe observation).flat = director.flat.observe observation.flat := by
  simp [flat, observe]

theorem flat_observeCall (director : Director β) (record : Record) :
    (director.observeCall record).flat = director.flat.observeCall record.flat := by
  have ht : (director.trace.map (·.add record)).map Trace.flat
      = (director.trace.map Trace.flat).map (·.add record.flat) := by
    rw [Option.map_map, Option.map_map]
    exact Option.map_congr fun trace _ => trace.flat_add record
  simp [flat, observeCall, observe, ht, Observation.flat]

theorem flat_keep (director : Director β) (turn : Turn β) :
    (director.keep turn).flat = director.flat.keep turn := rfl

theorem flat_complete (director : Director β) (turn : Turn β) (behavior : β) (latent : Bool) :
    director.flat.complete turn behavior latent =
      (director.complete turn behavior latent).map id .flat := by
  unfold complete
  have hs : director.flat.script = director.script := rfl
  rw [hs]
  split <;> rfl

theorem flat_withdraw (director : Director β) (record : Record) (behavior : β)
    (before : List Nat) (error : NodeError) :
    director.flat.withdraw record.flat behavior before error =
      (director.withdraw record behavior before error).map id .flat := by
  unfold withdraw
  have hs : director.flat.script.node? record.flat.node = director.script.node? record.node := rfl
  rw [hs]
  split
  · rfl
  · rw [Prod.map_apply, flat_observe]
    rfl

theorem flat_settle (director : Director β) (turn : Turn β) (record : Record) (before : List Nat)
    (verdict : Verdict) (behavior : β) :
    director.flat.settle turn record.flat before verdict behavior =
      (director.settle turn record before verdict behavior).map id .flat := by
  have hc : director.flat.config = director.config := rfl
  unfold settle
  rw [hc]
  split
  · exact flat_complete _ _ _ _
  · exact flat_withdraw _ _ _ _ _
  · split
    · exact flat_withdraw _ _ _ _ _
    · rfl

end Director

namespace Moment

variable [Behavior β]

/-- The same moment with no depth to tell. -/
def flat (m : Moment β) : Moment β := ⟨m.director.flat, m.order, 0, m.activation⟩

theorem flat_outcome (m : Moment β) : m.flat.outcome = m.outcome.map id .flat := by
  rcases ht : m.target? with _ | node
  · rw [outcome_of_target?_none ht, m.flat.outcome_of_target?_none ht]
    rfl
  rcases hb : node.behavior with _ | behavior
  · rw [outcome_of_behavior_none ht hb, m.flat.outcome_of_behavior_none ht hb]
    rfl
  · rw [outcome_of_behavior ht hb, m.flat.outcome_of_behavior ht hb, ← Director.flat_settle,
      Director.flat_keep, Director.flat_observeCall]
    rfl

/-- Moments that differ in depths only, be it their own or recorded ones, lead to the same. -/
theorem outcome_congr {m m' : Moment β} (h : m.flat = m'.flat) :
    m.outcome.map id Director.flat = m'.outcome.map id Director.flat := by
  rw [← flat_outcome, ← flat_outcome, h]

end Moment

/-- The ending without depths. -/
def Ending.flat (ending : Ending β) : Ending β := (ending.1.map .flat, ending.2.flat)

end FlowScript
