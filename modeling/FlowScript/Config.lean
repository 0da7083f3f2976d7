/-!
# Settings of a director
-/

namespace FlowScript

/-- Where an event is looked up by name. -/
inductive Scope where
  /-- In the originating graph and the graphs nested in it. -/
  | nested
  /-- In every graph of the script. -/
  | everywhere
deriving DecidableEq, Inhabited

/-- How a director contains panics, whether it keeps a trace, and how far events reach. -/
structure Config where
  /-- Turns a panic of a behavior into a failure of its node. -/
  catchPanics : Bool := true
  /-- Keeps a record of every call. -/
  recordTrace : Bool := false
  /-- How many records are kept; zero sets no limit. -/
  traceCapacity : Nat := 0
  /-- Where a behavior's events are looked up when it does not say. -/
  remoteScope : Scope := .nested
deriving DecidableEq, Inhabited

/-- Turns the trace on, with the given capacity. -/
def Config.withTrace (config : Config) (capacity : Nat) : Config :=
  { config with recordTrace := true, traceCapacity := capacity }

end FlowScript
