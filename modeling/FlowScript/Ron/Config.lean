import FlowScript.Config
import FlowScript.Error
import FlowScript.Ron.Decode

/-!
# Settings in RON

Every setting may be left out.
-/

namespace FlowScript

open Ron

/-- Reads a scope. -/
def Scope.ofTree? : Reading Scope
  | _, .word ⟨"Local", _⟩ => some .nested
  | _, .word ⟨"Global", _⟩ => some .everywhere
  | _, _ => none

/-- The RON form of a scope. -/
def Scope.toTree : Scope → Tree
  | .nested => .choice "Local"
  | .everywhere => .choice "Global"

namespace Config

/-- Reads settings from a tree. -/
def ofTree? : Reading Config := fun place tree => do
  let fields ← Reading.fields "DirectorConfig"
    ["catch_panics", "record_trace", "trace_capacity", "remote_event_scope"] place tree
  let default : Config := {}
  return {
    catchPanics := ← fields.getD? "catch_panics" default.catchPanics Reading.bool
    recordTrace := ← fields.getD? "record_trace" default.recordTrace Reading.bool
    traceCapacity := ← fields.getD? "trace_capacity" default.traceCapacity
      fun place t => (Reading.int .u64 place t).map (·.toNat)
    remoteScope := ← fields.getD? "remote_event_scope" default.remoteScope Scope.ofTree? }

/-- Reads settings from a text. -/
def parse (text : String) : Except ScriptError Config :=
  match (Document.parse? text).bind fun document => ofTree? document.place document.tree with
  | some config => .ok config
  | none => .error (.invalidConfig "not a record of settings")

/-- The RON form of settings. -/
def toTree (config : Config) : Tree :=
  .unnamed
    [ ("catch_panics", .bool config.catchPanics)
    , ("record_trace", .bool config.recordTrace)
    , ("trace_capacity", .int config.traceCapacity)
    , ("remote_event_scope", config.remoteScope.toTree) ]

/-- The text of settings. -/
def write (config : Config) : String := config.toTree.render 0

end Config

end FlowScript
