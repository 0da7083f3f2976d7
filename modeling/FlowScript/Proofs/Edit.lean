import FlowScript.Script.Values

/-!
# Edits

An edit is one change that a host makes to a script between two ticks, and an edit that is refused
changes nothing. Removing a graph is removing nodes and forgetting graphs (`removeGraph_keeps`).
-/

namespace FlowScript

variable {β : Type}

theorem bind_eq_ok {ε α γ : Type} {x : Except ε α} {f : α → Except ε γ} {c : γ} :
    (x >>= f) = .ok c ↔ ∃ a, x = .ok a ∧ f a = .ok c := by
  cases x <;> simp [bind, Except.bind]

theorem map_eq_ok {ε α γ : Type} {x : Except ε α} {f : α → γ} {c : γ} :
    x.map f = .ok c ↔ ∃ a, x = .ok a ∧ f a = c := by
  cases x <;> simp [Except.map]

theorem mapError_eq_ok {ε ε' α : Type} {x : Except ε α} {f : ε → ε'} {a : α} :
    x.mapError f = .ok a ↔ x = .ok a := by
  rcases x with e | b
  · exact ⟨nofun, nofun⟩
  · exact ⟨fun h => congrArg _ (Except.ok.inj h), fun h => congrArg _ (Except.ok.inj h)⟩

theorem exists_ok_of_isSome {ε α : Type} {x : Except ε α} (h : x.toOption.isSome = true) :
    ∃ a, x = .ok a := by
  rcases x with e | a
  · cases h
  · exact ⟨a, rfl⟩

/-- One change of a script by its host. -/
inductive Edit (β : Type) where
  | addGraph (parent : GraphId) (name : String)
  | setGraphName (graph : GraphId) (name : String)
  | removeGraph (graph : GraphId)
  | addNode (graph : GraphId) (builder : NodeBuilder β)
  | removeNode (node : NodeId)
  | connect (output : OutputRef) (input : InputRef)
  | connectByName (source : NodeId) (output : String) (target : NodeId) (input : String)
  | disconnect (output : OutputRef) (input : InputRef)
  | disconnectOutput (output : OutputRef)
  | disconnectInput (input : InputRef)
  | connectValue (link : ValueLinkRef) (cell : NodeId)
  | connectValueByName (node : NodeId) (name : String) (cell : NodeId)
  | disconnectValue (link : ValueLinkRef) (cell : Option NodeId)
  | setProperty (node : NodeId) (name : String) (value : Property)
  | setLinkValue (link : ValueLinkRef) (slot : Nat) (value : Property)
  /-- Writes to the node itself, past its bindings. -/
  | setLocalProperty (node : NodeId) (name : String) (value : Property)
  /-- Writes the cell of the node itself. -/
  | setValue (node : NodeId) (value : Property)
  /-- Adds a pulse to an output of the node. -/
  | activateOutput (node : NodeId) (index : Nat)

namespace Script

/-- The script that an edit results in, which is the old one if the edit was refused. -/
def unlessRefused {ε : Type} (script : Script β) : Except ε (Script β) → Script β
  | .ok next => next
  | .error _ => script

/-- The script after an edit. -/
def edit (script : Script β) : Edit β → Script β
  | .addGraph parent name => script.unlessRefused ((script.addGraph parent name).map (·.2))
  | .setGraphName graph name => script.setGraphName graph name
  | .removeGraph graph => script.unlessRefused (script.removeGraph graph)
  | .addNode graph builder => script.unlessRefused ((script.addNode graph builder).map (·.2))
  | .removeNode node => script.unlessRefused ((script.removeNode node).map (·.2))
  | .connect output input => (script.connect output input).2
  | .connectByName source output target input =>
    script.unlessRefused ((script.connectByName source output target input).map (·.2))
  | .disconnect output input => (script.disconnect output input).2
  | .disconnectOutput output => (script.disconnectOutput output).2
  | .disconnectInput input => (script.disconnectInput input).2
  | .connectValue link cell => script.unlessRefused (script.connectValue link cell)
  | .connectValueByName node name cell =>
    script.unlessRefused (script.connectValueByName node name cell)
  | .disconnectValue link cell => (script.disconnectValue link cell).2
  | .setProperty node name value => (script.setProperty node name value).2
  | .setLinkValue link slot value => (script.setLinkValue link slot value).2
  | .setLocalProperty node name value =>
    script.modifyNode node fun n => (n.setLocalProperty name value).2
  | .setValue node value => script.modifyNode node fun n => (n.setValue value).2
  | .activateOutput node index => script.modifyNode node fun n => (n.activateOutput index).2

theorem unlessRefused_keeps {ε : Type} {P : Script β → Prop} {script : Script β}
    {result : Except ε (Script β)} (hs : P script) (hr : ∀ next, result = .ok next → P next) :
    P (script.unlessRefused result) := by
  rcases result with e | next
  · exact hs
  · exact hr next rfl

/-! ## Removing graphs -/

section removal

variable {P : Script β → Prop}
  (hnode : ∀ {script : Script β} {id : NodeId} {removed : Node β × Script β},
    script.removeNode id = .ok removed → P script → P removed.2)

include hnode

theorem removeNodes_keeps : ∀ (ids : List NodeId) {script rest : Script β},
    removeNodes ids script = .ok rest → P script → P rest
  | [], script, rest, h, hs => by
    rw [removeNodes] at h
    obtain rfl := Except.ok.inj h
    exact hs
  | id :: ids, script, rest, h, hs => by
    rw [removeNodes] at h
    obtain ⟨removed, hr, h⟩ := bind_eq_ok.1 h
    exact removeNodes_keeps ids h (hnode hr hs)

variable (hgraphs : ∀ (script : Script β) (graphs : List Graph), P script →
    P { script with graphs := graphs })

include hgraphs

theorem removeGraphs_keeps : ∀ (ids : List GraphId) {script rest : Script β},
    removeGraphs ids script = .ok rest → P script → P rest
  | [], script, rest, h, hs => by
    rw [removeGraphs] at h
    obtain rfl := Except.ok.inj h
    exact hs
  | id :: ids, script, rest, h, hs => by
    rw [removeGraphs] at h
    obtain ⟨emptied, he, h⟩ := bind_eq_ok.1 h
    exact removeGraphs_keeps ids h (hgraphs _ _ (removeNodes_keeps hnode _ he hs))

/-- What outlasts every removal of a node and does not depend on graphs outlasts the removal of a
graph. -/
theorem removeGraph_keeps {script rest : Script β} {id : GraphId}
    (h : script.removeGraph id = .ok rest) (hs : P script) : P rest := by
  unfold removeGraph at h
  split at h
  · cases h
  split at h
  · cases h
  obtain ⟨emptied, he, h⟩ := bind_eq_ok.1 h
  have hp := removeGraphs_keeps hnode hgraphs _ he hs
  split at h <;> obtain rfl := Except.ok.inj h
  · exact hgraphs _ _ hp
  · exact hp

end removal

end Script

end FlowScript
