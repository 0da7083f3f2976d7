import FlowScript.Property.Text

/-!
# What can go wrong

Edits of a script and requests of the host are refused with a `ScriptError`. A behavior fails with
a `NodeError`, which never stops a tick.
-/

namespace FlowScript

/-- Why an edit or a request was refused. -/
inductive ScriptError where
  | connectionRejected (reason : String)
  | typeMismatch (expected got : PropertyType)
  | multiplicityExceeded (node : NodeId) (link : String)
  | nodeNotFound (node : NodeId)
  | graphNotFound (graph : GraphId)
  | linkNotFound (node : NodeId) (link : String)
  | notAValueNode (node : NodeId)
  | unknownNodeType (type : TypeId)
  | duplicateNodeType (type : TypeId)
  | cannotRemoveRoot
  | invalidConfig (cause : String)
  | faulted (reason : String)
deriving DecidableEq, Inhabited

namespace ScriptError

/-- The wording of a refusal. -/
def message : ScriptError → String
  | connectionRejected reason => "Connection rejected: " ++ reason
  | typeMismatch expected got => "Type mismatch: expected " ++ expected.text ++ ", got " ++ got.text
  | multiplicityExceeded node link =>
    "Value link " ++ link ++ " on " ++ node.text ++ " does not allow multiple connections"
  | nodeNotFound node => "Node not found: " ++ node.text
  | graphNotFound graph => "Graph not found: " ++ graph.text
  | linkNotFound node link => "Link not found: " ++ link ++ " on " ++ node.text
  | notAValueNode node => node.text ++ " is not a value node"
  | unknownNodeType type => "Unknown node type: " ++ type.text
  | duplicateNodeType type => "Node type already registered: " ++ type.text
  | cannotRemoveRoot => "The root graph cannot be removed"
  | invalidConfig cause => "Invalid config: " ++ cause
  | faulted reason => "Director faulted: " ++ reason

/-- Whether a connection was refused because of what it would join. -/
def isConnectionRejected : ScriptError → Bool
  | connectionRejected _ | typeMismatch _ _ | multiplicityExceeded _ _ => true
  | _ => false

end ScriptError

/-- Why a behavior failed. -/
inductive NodeError where
  | missingProperty (name : String)
  | propertyType (name expected got : String)
  | unknownLink (name : String)
  | panicked (cause : String)
  | custom (text : String)
deriving DecidableEq, Inhabited

/-- The wording of a failure. -/
def NodeError.message : NodeError → String
  | missingProperty name => "Missing property: " ++ name
  | propertyType name expected got =>
    "Property " ++ name ++ " has type " ++ got ++ ", expected " ++ expected
  | unknownLink name => "Unknown link: " ++ name
  | panicked cause => "Node panicked: " ++ cause
  | custom text => text

end FlowScript
