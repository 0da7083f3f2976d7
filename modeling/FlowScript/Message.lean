import FlowScript.Property.Basic

/-!
# Messages to the host

Behaviors hand messages to the host and get no answer.
-/

namespace FlowScript

/-- A message with its parameters, the node that sent it and the tick in which it did. -/
structure Message where
  name : String
  params : PropertySet := []
  graph : GraphId
  node : NodeId
  tick : Nat
deriving Inhabited

/-- Sets a parameter. -/
def Message.withParam (message : Message) (key : String) (value : Property) : Message :=
  { message with params := Keyed.insert message.params key value }

/-- Messages in the order in which they were sent. -/
structure MessageLog where
  messages : List Message := []
deriving Inhabited

namespace MessageLog

/-- Adds a message after the others. -/
def send (log : MessageLog) (message : Message) : MessageLog := ⟨log.messages ++ [message]⟩

/-- The names of the messages. -/
def names (log : MessageLog) : List String := log.messages.map (·.name)

/-- Takes all messages out. -/
def drain (log : MessageLog) : List Message × MessageLog := (log.messages, {})

end MessageLog

/-- What becomes of the messages. -/
inductive Bridge where
  /-- They are dropped. -/
  | silent
  /-- They are kept. -/
  | recording (log : MessageLog)
deriving Inhabited

namespace Bridge

/-- Delivers a message. -/
def send : Bridge → Message → Bridge
  | silent, _ => silent
  | recording log, message => recording (log.send message)

/-- The messages kept so far. -/
def log : Bridge → MessageLog
  | silent => {}
  | recording log => log

end Bridge

end FlowScript
