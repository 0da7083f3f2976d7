/-!
# The tick clock

The host moves the clock once per frame by a simulated and a real delta. Simulated time may stand
still while real time passes.
-/

namespace FlowScript

/-- The tick number, the deltas of the current tick and their sums. -/
structure Clock where
  tick : Nat := 0
  simDelta : Float := 0
  realDelta : Float := 0
  simElapsed : Float := 0
  realElapsed : Float := 0
deriving Inhabited

namespace Clock

/-- A delta as it is counted: negative, infinite and undefined ones count as zero. -/
def sanitize (delta : Float) : Float := if delta.isFinite && 0 < delta then delta else 0

/-- Moves on to the next tick. -/
def advance (clock : Clock) (sim real : Float) : Clock where
  tick := clock.tick + 1
  simDelta := sanitize sim
  realDelta := sanitize real
  simElapsed := clock.simElapsed + sanitize sim
  realElapsed := clock.realElapsed + sanitize real

/-- Whether simulated time stood still in this tick. -/
def isPaused (clock : Clock) : Bool := clock.simDelta == 0

end Clock

end FlowScript
