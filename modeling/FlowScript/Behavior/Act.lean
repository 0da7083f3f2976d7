import FlowScript.Behavior.Program

/-!
# Writing behaviors

An act is a program with private state that can stop early, either with a failure of the node or
with a panic. The private state keeps what was written to it however the act ends.
-/

namespace FlowScript

/-- Why a behavior stopped early. -/
inductive Stop where
  | failed (error : NodeError)
  /-- A panic, with its text if it has one. -/
  | panicked (text : Option String)
deriving DecidableEq, Inhabited

/-- What a panic is reported as. -/
def panicText (text : Option String) : String := text.getD "unknown panic"

/-- How a call ended: whether the node wants to be called again, or why it stopped. -/
abbrev Verdict := Except Stop Bool

/-- A program with private state that can stop early. -/
abbrev Act (σ : Type) := ExceptT Stop (StateT σ Program)

/-- What the engine can call. `react` is given the input that fired and whether the call begins a
new run, and answers how the call ended and what became of the behavior. -/
class Behavior (β : Type) where
  react : β → Option Nat → Bool → Program (Verdict × β)

namespace Act

variable {σ : Type}

/-- Puts one request. -/
def ask (r : Request) : Act σ r.Answer :=
  ExceptT.lift (StateT.lift (Program.request r))

/-- Fails the node. -/
def fail {α : Type} (error : NodeError) : Act σ α := throw (.failed error)

/-- Panics. -/
def panic {α : Type} (text : Option String) : Act σ α := throw (.panicked text)

/-- Runs an act from its private state. -/
def start (act : Act σ Bool) (state : σ) : Program (Verdict × σ) := act.run.run state

/-- Pulses an output by index. -/
def pulse (output : Nat) : Act σ Bool := ask (.pulse output)

/-- The index of an output by name; a missing one fails the node. -/
def outputIndex (name : String) : Act σ Nat := do
  match ← ask (.outputIndex name) with
  | some index => return index
  | none => fail (.unknownLink name)

/-- Pulses an output by name. -/
def fire (name : String) : Act σ Unit := do
  let _ ← pulse (← outputIndex name)

/-- Opens a frame that calls everything connected to an output. -/
def pushOutput (name : String) : Act σ Unit := do
  ask (.pushTargets (← outputIndex name))

/-- Reads a property as one type; a missing one and one of another type fail the node. -/
def read {α : Type} (name expected : String) (view : Property → Option α) : Act σ α := do
  match ← ask (.property name) with
  | none => fail (.missingProperty name)
  | some value =>
    match view value with
    | some a => return a
    | none => fail (.propertyType name expected value.typeName)

/-- Reads a boolean. -/
def getBool (name : String) : Act σ Bool := read name "bool" Property.asBool?

/-- Reads an integer. -/
def getInt (name : String) : Act σ Int64 := read name "int" Property.asInt?

/-- Reads a float; an integer widens. -/
def getFloat (name : String) : Act σ Float := read name "float" Property.asFloat?

/-- Reads a string. -/
def getString (name : String) : Act σ String := read name "string" Property.asString?

/-- Reads an actor slot. -/
def getActor (name : String) : Act σ (Option ActorId) := read name "actor" Property.asActorSlot?

/-- Writes a property. -/
def write (name : String) (value : Property) : Act σ Unit := do
  let _ ← ask (.setProperty name value)

/-- A message of this node in this tick. -/
def message (name : String) : Act σ Message := do
  return { name := name, graph := ← ask .graph, node := ← ask .node, tick := ← ask .tick }

end Act

end FlowScript
