import FlowScript.Behavior.Act
import FlowScript.Event

/-!
# The standard behaviors

Flow control, events and messages. Only the loop and the delay have private state.
-/

namespace FlowScript

/-- The private state of a delay. -/
structure Countdown where
  /-- Simulated seconds counted so far. -/
  elapsed : Float := 0
  running : Bool := false
  /-- The tick that was counted last. -/
  lastTick : Nat := 0
deriving Inhabited

/-- A standard behavior with its private state. -/
inductive Standard where
  | inert
  | fireOutputs
  | toggle
  /-- With the index of the iteration that was started last. -/
  | forLoop (current : Int64)
  | switch
  | delay (countdown : Countdown)
  | branch
  | callRemoteEvent
  | passThrough
  | sendMessage
deriving Inhabited

namespace Standard

variable {σ : Type}

/-- The next integer; there is none after the largest. -/
def successor (i : Int64) : Act σ Int64 :=
  if i = Int64.maxValue then Act.panic (some "attempt to add with overflow") else return i + 1

/-- Pulses the first outputs, each once. -/
def pulseFirst : Nat → Act σ Unit
  | 0 => return ()
  | n + 1 => do
    pulseFirst n
    let _ ← Act.pulse n

/-- Pulses every output once. -/
def fireOutputsAct : Act σ Bool := do
  pulseFirst (← Act.ask .outputCount)
  return false

/-- Sets, clears or flips `Value` and goes on. -/
def toggleAct (input : Option Nat) : Act σ Bool := do
  let value ← match input with
    | some 0 => pure true
    | some 1 => pure false
    | some 2 => (!·) <$> Act.getBool "Value"
    | _ => return false
  Act.write "Value" (.bool value)
  Act.fire "Out"
  return false

/-- Counts from `Start` to `End`: each call writes `CurrentIndex`, runs everything connected to
`Out` to its end and then calls the loop again. Past the end it fires `Finished`. -/
def forLoopAct (first : Bool) : Act Int64 Bool := do
  if first then set (← Act.getInt "Start")
  else set (← successor (← get))
  let current ← get
  if (← Act.getInt "End") < current then
    Act.fire "Finished"
    return false
  Act.write "CurrentIndex" (.int current)
  Act.pushOutput "Out"
  Act.ask .pushSelf
  return false

/-- Fires one output after another. `CurrentIndex` names, from one, the output that is next; past
the last one a looping switch starts again and another one fires nothing until `Reset`. -/
def switchAct (input : Option Nat) : Act σ Bool := do
  if input = some 1 then
    Act.write "CurrentIndex" (.int 1)
    return false
  let count ← Act.ask .outputCount
  let stored ← Act.getInt "CurrentIndex"
  let index ← if (count : Int) < max stored.toInt 1 then
      if ← Act.getBool "Looping" then pure 1 else return false
    else pure (max stored 1)
  let _ ← Act.pulse (index.toInt - 1).toNat
  Act.write "CurrentIndex" (.int (← successor index))
  return false

/-- Fires `Out` once `Delay` simulated seconds have passed after the tick of the start. A start
while it runs restarts the countdown, `Cancel` stops it and fires `Cancelled`. A restart leaves the
earlier countdown queued, so a tick is counted only once. -/
def delayAct (input : Option Nat) (first : Bool) : Act Countdown Bool := do
  if input = some 1 then
    if (← get).running then
      modify ({ · with running := false })
      Act.fire "Cancelled"
    return false
  let tick ← Act.ask .tick
  if first then
    set { elapsed := 0, running := true, lastTick := tick : Countdown }
    if (← Act.getFloat "Delay") ≤ 0 then
      modify ({ · with running := false })
      Act.fire "Out"
      return false
    return true
  let countdown ← get
  if !countdown.running || tick == countdown.lastTick then return false
  let delta ← Act.ask .simDelta
  set { countdown with elapsed := countdown.elapsed + delta, lastTick := tick }
  let delay ← Act.getFloat "Delay"
  if delay ≤ countdown.elapsed + delta then
    modify ({ · with running := false })
    Act.fire "Out"
    return false
  return true

/-- Fires `True` or `False` as `Condition` says. -/
def branchAct : Act σ Bool := do
  Act.fire (if ← Act.getBool "Condition" then "True" else "False")
  return false

/-- Starts every event of the name in `EventName` and goes on at once. -/
def callRemoteEventAct : Act σ Bool := do
  let name ← Act.getString eventNameProperty
  let scope := if ← Act.getBool "LocalOnly" then Scope.nested else Scope.everywhere
  let _ ← Act.ask (.signal name (some scope))
  Act.fire "Out"
  return false

/-- Goes on at once. -/
def passThroughAct : Act σ Bool := do
  Act.fire "Out"
  return false

/-- The name of the parameter that holds a slot. -/
def paramName : Nat → String
  | 0 => "Param"
  | n + 1 => "Param" ++ (n + 1).repr

/-- Adds the first slots of `Param` to a message. -/
def addParams : Nat → Message → Act σ Message
  | 0, message => return message
  | n + 1, message => do
    let filled ← addParams n message
    match ← Act.ask (.slot "Param" n) with
    | some value => return filled.withParam (paramName n) value
    | none => return filled

/-- Sends the message named in `MessageName`, with one parameter for each slot of `Param`, and goes
on. -/
def sendMessageAct : Act σ Bool := do
  let message ← Act.message (← Act.getString "MessageName")
  Act.ask (.send (← addParams (← Act.ask (.slotCount "Param")) message))
  Act.fire "Out"
  return false

/-- Runs an act without private state. -/
def stateless (self : Standard) (act : Act Unit Bool) : Program (Verdict × Standard) :=
  (fun ended => (ended.1, self)) <$> act.start ()

/-- How a standard behavior reacts to a call. -/
def react : Standard → Option Nat → Bool → Program (Verdict × Standard)
  | inert, _, _ => .done (.ok false, inert)
  | fireOutputs, _, _ => stateless fireOutputs fireOutputsAct
  | toggle, input, _ => stateless toggle (toggleAct input)
  | forLoop current, _, first =>
    (fun ended => (ended.1, forLoop ended.2)) <$> (forLoopAct first).start current
  | switch, input, _ => stateless switch (switchAct input)
  | delay countdown, input, first =>
    (fun ended => (ended.1, delay ended.2)) <$> (delayAct input first).start countdown
  | branch, _, _ => stateless branch branchAct
  | callRemoteEvent, _, _ => stateless callRemoteEvent callRemoteEventAct
  | passThrough, _, _ => stateless passThrough passThroughAct
  | sendMessage, _, _ => stateless sendMessage sendMessageAct

end Standard

instance : Behavior Standard where
  react := Standard.react

end FlowScript
