import FlowScript.Registry
import FlowScript.Standard.Behavior

/-!
# The standard node types

Their links, their default properties and the registry that holds them all.
-/

namespace FlowScript

/-- A type of the category of flow and event nodes. -/
def coreType (name : String) : TypeId := ⟨name, "Core"⟩

/-- A type of the category of cells. -/
def cellType (name : String) : TypeId := ⟨name, "Value"⟩

namespace Standard

/-- A node that sets, clears or flips a boolean. -/
def toggleNode : NodeBuilder Standard :=
  (NodeBuilder.action (coreType "Toggle") toggle)
    |>.input "TurnOn" |>.input "TurnOff" |>.input "Toggle"
    |>.output "Out"
    |>.link (.output "Value" (.bool false))

/-- A node that counts. -/
def forLoopNode : NodeBuilder Standard :=
  (NodeBuilder.action (coreType "For Loop") (forLoop 0))
    |>.input "Start"
    |>.output "Out" |>.output "Finished"
    |>.link (.input "Start" (.int 0)) |>.link (.input "End" (.int 0))
    |>.link (.output "CurrentIndex" (.int 0))

/-- Appends the outputs `Out1`, `Out2` and so on. -/
def withOutputs (builder : NodeBuilder Standard) (count : Nat) : NodeBuilder Standard :=
  { builder with
    outputs := builder.outputs ++
      (List.range count).map fun i => { name := "Out" ++ (i + 1).repr } }

/-- How many outputs a switch has: as many as `OutputCount` says, but at least one, and two if it
does not say. -/
def outputCount (properties : PropertySet) : Int64 :=
  max (((Keyed.get? properties "OutputCount").bind (·.asInt?)).getD 2) 1

/-- A node that fires one output after another. -/
def switchNode (properties : PropertySet) : NodeBuilder Standard :=
  let count := outputCount properties
  withOutputs
    ((NodeBuilder.action (coreType "Switch") switch)
      |>.input "In" |>.input "Reset"
      |>.property "OutputCount" (.int count) |>.property "Looping" (.bool false)
      |>.link (.input "CurrentIndex" (.int 1)))
    count.toInt.toNat

/-- A node that waits. -/
def delayNode : NodeBuilder Standard :=
  (NodeBuilder.action (coreType "Delay") (delay {}))
    |>.input "Start" |>.input "Cancel"
    |>.output "Out" |>.output "Cancelled"
    |>.link (.input "Delay" (.float 1))

/-- A node that goes one of two ways. -/
def branchNode : NodeBuilder Standard :=
  (NodeBuilder.action (coreType "Branch") branch)
    |>.input "In"
    |>.output "True" |>.output "False"
    |>.link (.input "Condition" (.bool false))

/-- An event that the host fires to start a script. -/
def startNode : NodeBuilder Standard :=
  (NodeBuilder.event startEventType fireOutputs) |>.output "Out"

/-- An event that answers to a name. -/
def remoteEventNode : NodeBuilder Standard :=
  (NodeBuilder.event remoteEventType fireOutputs)
    |>.output "Out"
    |>.property eventNameProperty (.string "")

/-- A node that starts the events of a name. -/
def callRemoteEventNode : NodeBuilder Standard :=
  (NodeBuilder.action (coreType "Call Remote Event") callRemoteEvent)
    |>.input "In"
    |>.output "Out"
    |>.property eventNameProperty (.string "") |>.property "LocalOnly" (.bool true)

/-- A node that marks where control enters or leaves a nested graph. -/
def passThroughNode (name : String) : NodeBuilder Standard :=
  (NodeBuilder.action (coreType name) passThrough) |>.input "In" |>.output "Out"

/-- The type of nodes that send a message. -/
def sendMessageType : TypeId := ⟨"Send Message", "Messages"⟩

/-- A node that sends a message. -/
def sendMessageNode : NodeBuilder Standard :=
  (NodeBuilder.action sendMessageType sendMessage)
    |>.input "In"
    |>.output "Out"
    |>.property "MessageName" (.string "")
    |>.link (((ValueLink.input "Param" (.string "")).typeChecked false).allowMultiple true)

/-- A cell. -/
def cell (name : String) (initial : Property) : NodeBuilder Standard :=
  .value (cellType name) initial inert

/-- An entry of the catalog, of which only the authored properties of a switch shape the node. -/
def fixed (builder : NodeBuilder Standard) : TypeId × Factory Standard :=
  (builder.type, fun _ => builder)

/-- Every standard node type. -/
def catalog : List (TypeId × Factory Standard) :=
  [ fixed toggleNode
  , fixed forLoopNode
  , (coreType "Switch", switchNode)
  , fixed delayNode
  , fixed branchNode
  , fixed startNode
  , fixed remoteEventNode
  , fixed callRemoteEventNode
  , fixed (passThroughNode "Input")
  , fixed (passThroughNode "Output")
  , fixed sendMessageNode
  , fixed (cell "Boolean" (.bool false))
  , fixed (cell "Integer" (.int 0))
  , fixed (cell "Float" (.float 0))
  , fixed (cell "String" (.string ""))
  , fixed (cell "Actor" (.actor none)) ]

/-- The registry of every standard node type. -/
def registry : Registry Standard := ((Registry.mk []).registerAll catalog).2

end Standard

end FlowScript
