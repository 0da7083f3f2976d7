import FlowScript.Activation
import FlowScript.Config
import FlowScript.Message
import FlowScript.Script.Values

/-!
# Programs of behaviors

A behavior reaches the script and the scheduler only by asking: each request names one thing that
the engine can do for it, and the behavior goes on with the answer. A program is such a tree of
requests, so what holds of every request holds of every behavior.
-/

namespace FlowScript

/-- What an action of a behavior led to, as it is noted down. -/
inductive Outcome where
  | nothing
  | flag (value : Bool)
  | count (value : Nat)
  | whole (value : Int64)
  | float (value : Float)
  | string (value : String)
  | actor (value : Option ActorId)
  | property (value : Option Property)
  | failure (error : NodeError)
  /-- What the behavior can see of its call. -/
  | situation (node : NodeId) (graph : GraphId) (input : Option Nat) (inputName : Option String)
      (first : Bool) (tick : Nat) (sim real : Float) (inputs outputs nodes : Nat)
deriving Inhabited

/-- A line of a behavior's notes: the node, what it did and what that led to. -/
structure Note where
  node : NodeId
  action : String
  outcome : Outcome
deriving Inhabited

/-- What a behavior can ask for. Names refer to links and properties of its own node. -/
inductive Request where
  /-- Its own id. -/
  | node
  /-- The graph it is in. -/
  | graph
  /-- The input that fired. -/
  | input
  /-- Whether this call begins a new run. -/
  | first
  | tick
  | simDelta
  | realDelta
  /-- A view of the whole script. -/
  | script
  | inputName
  | inputCount
  | outputCount
  | outputIndex (name : String)
  | activeCount (name : String)
  /-- Adds a pulse to an output. -/
  | pulse (output : Nat)
  | property (name : String)
  | setProperty (name : String) (value : Property)
  | slotCount (link : String)
  | slot (link : String) (index : Nat)
  | setSlot (link : String) (index : Nat) (value : Property)
  /-- Opens a frame that calls a node. -/
  | pushNode (node : NodeId) (input : Option Nat)
  /-- Opens a frame that calls everything connected to an output. -/
  | pushTargets (output : Nat)
  /-- Opens a frame that resumes this call. -/
  | pushSelf
  /-- Starts the events of a name with the next wave. -/
  | signal (event : String) (scope : Option Scope)
  /-- Hands a message to the host. -/
  | send (message : Message)
  /-- Writes a note. -/
  | note (entry : Note)

/-- What the engine answers. -/
@[reducible] def Request.Answer : Request → Type
  | node => NodeId
  | graph => GraphId
  | input => Option Nat
  | first => Bool
  | tick => Nat
  | simDelta => Float
  | realDelta => Float
  | script => Script Unit
  | inputName => Option String
  | inputCount => Nat
  | outputCount => Nat
  | outputIndex _ => Option Nat
  | activeCount _ => Nat
  | pulse _ => Bool
  | property _ => Option Property
  | setProperty _ _ => Bool
  | slotCount _ => Nat
  | slot _ _ => Option Property
  | setSlot _ _ _ => Bool
  | pushNode _ _ => Unit
  | pushTargets _ => Unit
  | pushSelf => Unit
  | signal _ _ => Nat
  | send _ => Unit
  | note _ => Unit

/-- A tree of requests: either a result, or a request and what follows each answer to it. -/
inductive Program (α : Type) where
  | done (result : α)
  | ask (request : Request) (next : request.Answer → Program α)

namespace Program

variable {α γ : Type}

/-- Goes on with the result of a program. -/
def bind : Program α → (α → Program γ) → Program γ
  | done a, f => f a
  | ask r next, f => ask r fun answer => bind (next answer) f

instance : Monad Program where
  pure := done
  bind := bind

@[simp] theorem pure_eq (a : α) : (pure a : Program α) = done a := rfl

@[simp] theorem done_bind (a : α) (f : α → Program γ) : (done a >>= f) = f a := rfl

@[simp] theorem ask_bind (r : Request) (next : r.Answer → Program α) (f : α → Program γ) :
    (ask r next >>= f) = ask r fun answer => next answer >>= f := rfl

theorem bind_done (p : Program α) : p.bind done = p := by
  induction p with
  | done a => rfl
  | ask r next ih => simp [bind, ih]

theorem bind_assoc {δ : Type} (p : Program α) (f : α → Program γ) (g : γ → Program δ) :
    (p.bind f).bind g = p.bind fun a => (f a).bind g := by
  induction p with
  | done a => rfl
  | ask r next ih => simp [bind, ih]

/-- Puts one request. -/
def request (r : Request) : Program r.Answer := ask r done

end Program

end FlowScript
