import FlowScript.Standard.Catalog

/-!
# Behaviors of a host

A host mixes standard behaviors with its own. Its own are given by a table of rules: the rule that
fits a call lists actions, which are performed in order and noted down with their outcomes.
-/

namespace FlowScript

/-- One thing that a rule does. Names refer to links and properties of the node. -/
inductive Action where
  | info
  | activate (output : String)
  | activateIndex (output : Nat)
  | activeCount (output : String)
  | property (name : String)
  | setProperty (name : String) (value : Property)
  | getBool (name : String)
  | getInt (name : String)
  | getFloat (name : String)
  | getString (name : String)
  | getActor (name : String)
  | slots (link : String)
  | linkValue (link : String) (slot : Nat)
  | setLinkValue (link : String) (slot : Nat) (value : Property)
  | pushStack (node : NodeId) (input : Option Nat)
  | pushOutput (output : String)
  | resume
  | remote (event : String) (scope : Option Scope)
  | send (name : String) (params : PropertySet)
  | fail (text : String)
  | panic (text : Option String)
deriving Inhabited

/-- An action and whether its failure is passed over. -/
structure Step where
  name : String
  action : Action
  tries : Bool := false

/-- Actions and the calls that they are meant for. A condition that is absent always holds. -/
structure Rule where
  input : Option (Option Nat) := none
  first : Option Bool := none
  /-- The first call, counted from zero, that the rule is for. -/
  start : Nat := 0
  /-- The first call that the rule is no longer for. -/
  stop : Option Nat := none
  steps : List Step := []
  /-- Whether the node asks to be called again. -/
  latent : Bool := false

/-- Whether a rule is for a call. -/
def Rule.fits (rule : Rule) (call : Nat) (input : Option Nat) (first : Bool) : Bool :=
  rule.input.all (· == input) && rule.first.all (· == first) &&
    rule.start ≤ call && rule.stop.all (call < ·)

namespace Action

variable {σ : Type}

/-- What a behavior can see of its call. -/
def situation : Act σ Outcome := do
  return .situation (← Act.ask .node) (← Act.ask .graph) (← Act.ask .input) (← Act.ask .inputName)
    (← Act.ask .first) (← Act.ask .tick) (← Act.ask .simDelta) (← Act.ask .realDelta)
    (← Act.ask .inputCount) (← Act.ask .outputCount) (← Act.ask .script).nodes.length

/-- Performs an action and answers its outcome. -/
def perform : Action → Act σ Outcome
  | info => situation
  | activate output => do Act.fire output; return .nothing
  | activateIndex output => .flag <$> Act.pulse output
  | activeCount output => .count <$> Act.ask (.activeCount output)
  | property name => .property <$> Act.ask (.property name)
  | setProperty name value => .flag <$> Act.ask (.setProperty name value)
  | getBool name => .flag <$> Act.getBool name
  | getInt name => .whole <$> Act.getInt name
  | getFloat name => .float <$> Act.getFloat name
  | getString name => .string <$> Act.getString name
  | getActor name => .actor <$> Act.getActor name
  | slots link => .count <$> Act.ask (.slotCount link)
  | linkValue link slot => .property <$> Act.ask (.slot link slot)
  | setLinkValue link slot value => .flag <$> Act.ask (.setSlot link slot value)
  | pushStack node input => do Act.ask (.pushNode node input); return .nothing
  | pushOutput output => do Act.pushOutput output; return .nothing
  | resume => do Act.ask .pushSelf; return .nothing
  | remote event scope => .count <$> Act.ask (.signal event scope)
  | send name params => do
    let message ← Act.message name
    Act.ask (.send { message with params := Keyed.insertAll message.params params })
    return .nothing
  | fail text => Act.fail (.custom text)
  | panic text => Act.panic text

/-- Performs an action and answers its failure as an outcome. A panic goes through. -/
def attempt (action : Action) : Act σ (Except NodeError Outcome) :=
  tryCatch (.ok <$> action.perform) fun
    | .failed error => return .error error
    | stop => throw stop

end Action

/-- Performs steps in order and notes each down; a failure that is not passed over ends the call. -/
def performSteps {σ : Type} : List Step → Act σ Unit
  | [] => return ()
  | step :: rest => do
    let result ← step.action.attempt
    let node ← Act.ask .node
    match result with
    | .ok outcome => Act.ask (.note ⟨node, step.name, outcome⟩)
    | .error error =>
      Act.ask (.note ⟨node, step.name, .failure error⟩)
      if !step.tries then Act.fail error
    performSteps rest

/-- Follows the first rule that is for this call; the state counts the calls. -/
def followRules (rules : List Rule) (input : Option Nat) (first : Bool) : Act Nat Bool := do
  let call ← get
  set (call + 1)
  match rules.find? (·.fits call input first) with
  | none => return false
  | some rule =>
    performSteps rule.steps
    return rule.latent

/-- A behavior of a host with its private state. -/
inductive Agent where
  | standard (behavior : Standard)
  /-- Pulses the output with the index of the input that fired, and wants to be called again after
  the first call. -/
  | relay
  /-- Follows rules; with the number of calls so far. -/
  | rules (table : List Rule) (calls : Nat)

instance : Inhabited Agent := ⟨.standard .inert⟩

/-- How a behavior of a host reacts to a call. -/
def Agent.react : Agent → Option Nat → Bool → Program (Verdict × Agent)
  | standard behavior, input, first =>
    (fun ended => (ended.1, standard ended.2)) <$> behavior.react input first
  | relay, input, first =>
    .ask (.pulse (input.getD 0)) fun _ => .done (.ok first, relay)
  | rules table calls, input, first =>
    (fun ended => (ended.1, rules table ended.2)) <$> (followRules table input first).start calls

instance : Behavior Agent where
  react := Agent.react

/-- The registry of every standard node type, for a host. -/
def Agent.registry : Registry Agent := Standard.registry.map .standard

end FlowScript
