import FlowScript.Config
import FlowScript.Script.Values

/-!
# Events found by name
-/

namespace FlowScript

/-- The type of events that answer to a name. -/
def remoteEventType : TypeId := ⟨"Remote Event", "Core"⟩

/-- The type of events that the host fires once to start a script. -/
def startEventType : TypeId := ⟨"Start", "Core"⟩

/-- The property that holds the name an event answers to. -/
def eventNameProperty : String := "EventName"

/-- The events that answer to a name, in order of creation. -/
def Script.eventsNamed {β : Type} (script : Script β) (name : String) (scope : Scope)
    (origin : GraphId) : List NodeId :=
  script.find remoteEventType eventNameProperty (.string name)
    (match scope with
      | .nested => some origin
      | .everywhere => none)

end FlowScript
