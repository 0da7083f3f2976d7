import FlowScript.Ident
import FlowScript.Keyed

/-!
# Typed values of nodes

A property holds a plain value, a reference to an actor, a choice of a named enumeration, or other
properties. Its type decides where it may be stored: a value fits its own type, and an integer also
fits a float.
-/

namespace FlowScript

/-- A typed value. -/
inductive Property where
  | bool (value : Bool)
  | int (value : Int64)
  | float (value : Float)
  | string (value : String)
  | actor (value : Option ActorId)
  | enum (typeName value : String)
  | group (fields : List (String × Property))
  | array (items : List Property)
deriving Inhabited

/-- Named properties in the order in which they were first stored. -/
abbrev PropertySet := Keyed String Property

/-- The type of a property. Enumerations are told apart by name. -/
inductive PropertyType where
  | bool
  | int
  | float
  | string
  | actor
  | enum (name : String)
  | group
  | array
deriving DecidableEq, Inhabited

namespace Property

/-- The type that a value declares. -/
def type : Property → PropertyType
  | bool _ => .bool
  | int _ => .int
  | float _ => .float
  | string _ => .string
  | actor _ => .actor
  | enum name _ => .enum name
  | group _ => .group
  | array _ => .array

/-- The value as it is stored in a place of the given type: an integer widens to a float, every
other value must have exactly that type. -/
def coerce (value : Property) (target : PropertyType) : Option Property :=
  match value, target with
  | int i, .float => some (float i.toFloat)
  | value, target => if value.type = target then some value else none

/-- The boolean held. -/
def asBool? : Property → Option Bool
  | bool b => some b
  | _ => none

/-- The integer held. -/
def asInt? : Property → Option Int64
  | int i => some i
  | _ => none

/-- The float held; an integer widens. -/
def asFloat? : Property → Option Float
  | float x => some x
  | int i => some i.toFloat
  | _ => none

/-- The string held. -/
def asString? : Property → Option String
  | string s => some s
  | _ => none

/-- The actor slot held, which may be empty. -/
def asActorSlot? : Property → Option (Option ActorId)
  | actor a => some a
  | _ => none

/-- The actor referred to. -/
def asActor? (value : Property) : Option ActorId := value.asActorSlot?.join

/-- The enumeration and the choice held. -/
def asEnum? : Property → Option (String × String)
  | enum typeName value => some (typeName, value)
  | _ => none

/-- The named properties held. -/
def asGroup? : Property → Option PropertySet
  | group fields => some fields
  | _ => none

/-- The listed properties held. -/
def asArray? : Property → Option (List Property)
  | array items => some items
  | _ => none

mutual

/-- Equality of values. Floats are compared as numbers, so that a NaN differs from itself, and
groups without regard to order. -/
def same : Property → Property → Bool
  | bool a, bool b => a == b
  | int a, int b => a == b
  | float a, float b => a == b
  | string a, string b => a == b
  | actor a, actor b => a == b
  | enum t a, enum u b => t == u && a == b
  | group xs, group ys => xs.length == ys.length && sameFields xs ys
  | array xs, array ys => sameItems xs ys
  | _, _ => false

/-- Whether every field of the first group has an equal in the second. -/
def sameFields : List (String × Property) → List (String × Property) → Bool
  | [], _ => true
  | (k, x) :: xs, ys =>
    (match Keyed.get? ys k with
      | some y => same x y
      | none => false) && sameFields xs ys

/-- Whether two lists are equal item by item. -/
def sameItems : List Property → List Property → Bool
  | [], [] => true
  | x :: xs, y :: ys => same x y && sameItems xs ys
  | _, _ => false

end

end Property

end FlowScript
