import FlowScript.Error

/-!
# Scheduled calls and what is known about them

An activation is a call that is due. A record says that it happened, a report sums a tick up, and
an observation is what a watcher of the director is told.
-/

namespace FlowScript

/-- A call of a node that is due. -/
structure Activation where
  node : NodeId
  /-- The input that fired; absent for events. -/
  input : Option Nat
  /-- Whether the call begins a new run of the node. -/
  first : Bool := true
deriving DecidableEq, Inhabited

/-- The same call, as a continuation of the run. -/
def Activation.resumed (activation : Activation) : Activation := { activation with first := false }

/-- A call of a node that happened. -/
structure Record where
  tick : Nat
  /-- The position within the tick, from zero. -/
  order : Nat
  graph : GraphId
  node : NodeId
  input : Option Nat
  first : Bool
  /-- Zero for a call of the wave; the number of open frames otherwise. -/
  depth : Nat
deriving DecidableEq, Inhabited

/-- The sum of a tick. -/
structure Report where
  tick : Nat
  /-- Calls made. -/
  invoked : Nat := 0
  /-- Calls that failed. -/
  failed : Nat := 0
  /-- Activations whose node or input was gone. -/
  discarded : Nat := 0
  /-- Nodes that asked to be called again in the next tick. -/
  latent : Nat := 0
  /-- Activations that wait for the next tick. -/
  carried : Nat := 0
  /-- The largest number of open frames. -/
  maxDepth : Nat := 0
deriving DecidableEq, Inhabited

/-- What a watcher of the director is told. -/
inductive Observation where
  | tickBegan (tick : Nat)
  | called (record : Record)
  | failed (record : Record) (error : NodeError)
  | tickEnded (report : Report)
deriving DecidableEq, Inhabited

/-- The latest calls, in order. -/
structure Trace where
  /-- How many records are kept; zero sets no limit. -/
  capacity : Nat
  records : List Record := []
deriving DecidableEq, Inhabited

namespace Trace

/-- Adds a record; a full trace loses its oldest one. -/
def add (trace : Trace) (record : Record) : Trace :=
  let kept :=
    if 0 < trace.capacity ∧ trace.capacity ≤ trace.records.length then trace.records.tail
    else trace.records
  { trace with records := kept ++ [record] }

/-- The records of one tick. -/
def ofTick (trace : Trace) (tick : Nat) : List Record := trace.records.filter (·.tick == tick)

/-- The nodes called, in order. -/
def nodes (trace : Trace) : List NodeId := trace.records.map (·.node)

/-- Forgets every record. -/
def clear (trace : Trace) : Trace := { trace with records := [] }

end Trace

end FlowScript
