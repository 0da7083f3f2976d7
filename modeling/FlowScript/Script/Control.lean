import FlowScript.Script.Basic

/-!
# Connecting control links

A connection of an output and an input is always listed at both ends.
-/

namespace FlowScript.Script

variable {β : Type}

/-- Connects an output and an input. Refused when either is missing or they are connected. -/
def connect (script : Script β) (output : OutputRef) (input : InputRef) : Bool × Script β :=
  match script.output? output, script.input? input with
  | some o, some i =>
    if input ∈ o.connected ∨ output ∈ i.connected then (false, script)
    else
      (true, (script.modifyOutput output (·.attach input)).modifyInput input (·.attach output))
  | _, _ => (false, script)

/-- The index of the input of a node by name. -/
def inputIndex (script : Script β) (node : NodeId) (name : String) : Except ScriptError Nat :=
  match script.node? node with
  | none => .error (.nodeNotFound node)
  | some n => (n.inputIndex? name).elim (.error (.linkNotFound node name)) .ok

/-- The index of the output of a node by name. -/
def outputIndex (script : Script β) (node : NodeId) (name : String) : Except ScriptError Nat :=
  match script.node? node with
  | none => .error (.nodeNotFound node)
  | some n => (n.outputIndex? name).elim (.error (.linkNotFound node name)) .ok

/-- The index of the value link of a node by name. -/
def linkIndex (script : Script β) (node : NodeId) (name : String) : Except ScriptError Nat :=
  match script.node? node with
  | none => .error (.nodeNotFound node)
  | some n => (n.linkIndex? name).elim (.error (.linkNotFound node name)) .ok

/-- Connects an output and an input by name. -/
def connectByName (script : Script β) (source : NodeId) (output : String) (target : NodeId)
    (input : String) : Except ScriptError (Bool × Script β) := do
  let o ← script.outputIndex source output
  let i ← script.inputIndex target input
  return script.connect ⟨source, o⟩ ⟨target, i⟩

/-- Takes one connection off both ends; `false` when there was none. -/
def disconnect (script : Script β) (output : OutputRef) (input : InputRef) : Bool × Script β :=
  let atOutput := (script.output? output).any (input ∈ ·.connected)
  let atInput := (script.input? input).any (output ∈ ·.connected)
  (atOutput || atInput,
    (script.modifyOutput output (·.detach input)).modifyInput input (·.detach output))

/-- Takes every connection off an output and says how many there were. -/
def disconnectOutput (script : Script β) (output : OutputRef) : Nat × Script β :=
  match script.output? output with
  | none => (0, script)
  | some link =>
    (link.connected.length,
      link.connected.foldl (fun s input => s.modifyInput input (·.detach output))
        (script.modifyOutput output .clear))

/-- Takes every connection off an input and says how many there were. -/
def disconnectInput (script : Script β) (input : InputRef) : Nat × Script β :=
  match script.input? input with
  | none => (0, script)
  | some link =>
    (link.connected.length,
      link.connected.foldl (fun s output => s.modifyOutput output (·.detach input))
        (script.modifyInput input .clear))

end FlowScript.Script
