import FlowScript.Error

/-!
# Control links and value links

A link never owns what it is connected to: it lists references, which the script resolves. A
control connection is listed at both of its ends; a value binding is listed at the link only.
-/

namespace FlowScript

/-- An output of a node, by index. -/
structure OutputRef where
  node : NodeId
  index : Nat
deriving DecidableEq, Inhabited

/-- An input of a node, by index. -/
structure InputRef where
  node : NodeId
  index : Nat
deriving DecidableEq, Inhabited

/-- A value link of a node, by index. -/
structure ValueLinkRef where
  node : NodeId
  index : Nat
deriving DecidableEq, Inhabited

/-- The written form of a reference to an output. -/
def OutputRef.text (ref : OutputRef) : String :=
  ref.node.text ++ ".out[" ++ ref.index.repr ++ "]"

/-- The written form of a reference to an input. -/
def InputRef.text (ref : InputRef) : String :=
  ref.node.text ++ ".in[" ++ ref.index.repr ++ "]"

/-- A control link that calls its node; it remembers the outputs connected to it. -/
structure InputLink where
  name : String
  connected : List OutputRef := []
deriving DecidableEq, Inhabited

namespace InputLink

/-- Lists an output unless it is listed already. -/
def attach (link : InputLink) (output : OutputRef) : InputLink :=
  if output ∈ link.connected then link
  else { link with connected := link.connected ++ [output] }

/-- Takes an output off the list. -/
def detach (link : InputLink) (output : OutputRef) : InputLink :=
  { link with connected := link.connected.filter (· ≠ output) }

/-- Empties the list. -/
def clear (link : InputLink) : InputLink := { link with connected := [] }

end InputLink

/-- A control link that its node pulses; pulses are counted until they are taken. -/
structure OutputLink where
  name : String
  connected : List InputRef := []
  active : Nat := 0
deriving DecidableEq, Inhabited

namespace OutputLink

/-- The count at which further pulses are lost. -/
def maxActive : Nat := 4294967295

/-- Adds one pulse. -/
def activate (link : OutputLink) : OutputLink :=
  { link with active := min (link.active + 1) maxActive }

/-- Takes one pulse, if there is one. -/
def test (link : OutputLink) : Bool × OutputLink :=
  if 0 < link.active then (true, { link with active := link.active - 1 }) else (false, link)

/-- Lists an input unless it is listed already. -/
def attach (link : OutputLink) (input : InputRef) : OutputLink :=
  if input ∈ link.connected then link
  else { link with connected := link.connected ++ [input] }

/-- Takes an input off the list. -/
def detach (link : OutputLink) (input : InputRef) : OutputLink :=
  { link with connected := link.connected.filter (· ≠ input) }

/-- Empties the list. -/
def clear (link : OutputLink) : OutputLink := { link with connected := [] }

end OutputLink

/-- A named value of a node that can be bound to shared cells. Unbound it reads and writes its own
default; bound it reads and writes the cells. -/
structure ValueLink where
  name : String
  isOutput : Bool
  allowsMultiple : Bool
  isChecked : Bool
  default : Property
  bound : List NodeId := []
deriving Inhabited

namespace ValueLink

/-- A link that reads its source: one binding, of the default's type. -/
def input (name : String) (default : Property) : ValueLink :=
  ⟨name, false, false, true, default, []⟩

/-- A link that writes its targets: any number of bindings, of the default's type. -/
def output (name : String) (default : Property) : ValueLink :=
  ⟨name, true, true, true, default, []⟩

/-- Sets whether more than one cell may be bound. -/
def allowMultiple (link : ValueLink) (allow : Bool) : ValueLink :=
  { link with allowsMultiple := allow }

/-- Sets whether bound cells must have the default's type. -/
def typeChecked (link : ValueLink) (checked : Bool) : ValueLink :=
  { link with isChecked := checked }

/-- The type of the default. -/
def type (link : ValueLink) : PropertyType := link.default.type

/-- Whether any cell is bound. -/
def isConnected (link : ValueLink) : Bool := !link.bound.isEmpty

/-- How many slots can be read: one per binding, or one for the default. -/
def slotCount (link : ValueLink) : Nat := max link.bound.length 1

/-- Binds a cell after the others. -/
def attach (link : ValueLink) (cell : NodeId) : ValueLink :=
  { link with bound := link.bound ++ [cell] }

/-- Unbinds a cell. -/
def detach (link : ValueLink) (cell : NodeId) : ValueLink :=
  { link with bound := link.bound.filter (· ≠ cell) }

/-- Unbinds every cell. -/
def clear (link : ValueLink) : ValueLink := { link with bound := [] }

end ValueLink

end FlowScript
