import FlowScript.Property.Basic
import FlowScript.Ron.Decode

/-!
# Properties in RON

A property is written as a variant named for its type, such as `Int(1)`.
-/

namespace FlowScript

open Ron

/-- The RON form of a reference to an actor. -/
def ActorId.toTree (id : ActorId) : Tree := .tuple none [.int id.raw]

/-- Reads a reference to an actor in an actor slot. It is wrapped, unless an extension says
otherwise. -/
def ActorId.ofTree? : Reading ActorId := fun place tree => do
  let inner ← place.enter? 1
  let number (t : Tree) := (Reading.int .u64 inner t).map fun n => (⟨n.toNat⟩ : ActorId)
  if place.extensions.unwrapNewtypes || place.extensions.unwrapVariantNewtypes then number tree
  else
    match tree with
    | .tuple ident [wrapped] => if place.admits "ActorId" ident then number wrapped else none
    | _ => none

/-- What an actor slot holds when it is not empty. The announcement may be left out, or stand
without brackets, if an extension says so. -/
def announcedActor? (extensions : Extensions) : Tree → Option Tree
  | .enclosed _ [payload] => some payload
  | .enclosed _ _ | .record (some ⟨"Some", false⟩) _ => none
  | .announced payload => if extensions.implicitSome then some payload else none
  | other => if extensions.implicitSome then some other else none

/-- Reads an actor slot. -/
def actorSlot? : Reading (Option ActorId)
  | _, .word ⟨"None", false⟩ => some none
  | place, tree => do
    let payload ← announcedActor? place.extensions tree
    some <$> ActorId.ofTree? (← place.enter? 1) payload

/-- Reads the choice of an enumeration. -/
def choiceOfFields? (fields : Fields) : Option Property := do
  return .enum (← fields.get? "type_name" Reading.text) (← fields.get? "value" Reading.text)

/-- The names of the fields of a choice. -/
def choiceFields : List String := ["type_name", "value"]

namespace Property

mutual

/-- The RON form of a property. -/
def toTree : Property → Tree
  | bool b => .variant "Bool" (.bool b)
  | int i => .variant "Int" (.int i.toInt)
  | float x => .variant "Float" (.float x)
  | string s => .variant "String" (.text s)
  | actor none => .variant "Actor" (.choice "None")
  | actor (some id) => .variant "Actor" (.enclosed (some false) [id.toTree])
  | enum typeName value =>
    .variant "Enum" (.unnamed [("type_name", .text typeName), ("value", .text value)])
  | group fields => .variant "Group" (.map (entriesToTree fields))
  | array items => .variant "Array" (.list (itemsToTree items))

/-- The RON form of named properties. -/
def entriesToTree : List (String × Property) → List (Tree × Tree)
  | [] => []
  | (k, v) :: rest => (.text k, toTree v) :: entriesToTree rest

/-- The RON form of listed properties. -/
def itemsToTree : List Property → List Tree
  | [] => []
  | v :: rest => toTree v :: itemsToTree rest

end

/-- Reads named properties; a name given twice keeps its first place and its last value. -/
def setOfTree? (item : Reading Property) : Reading PropertySet := fun place tree =>
  Keyed.ofPairs <$> Reading.pairs item place tree

/-- Reads a property that is nested at most as deep as the first argument says. -/
def ofTree? : Nat → Reading Property
  | 0, _, _ => none
  | depth + 1, place, .tuple (some variant) [payload] => do
    let inner ← place.enter? 2
    match variant.name with
    | "Bool" => bool <$> Reading.bool inner payload
    | "Int" => (fun i => int (Int64.ofInt i)) <$> Reading.int .i64 inner payload
    | "Float" => float <$> Reading.float inner payload
    | "String" => string <$> Reading.text inner payload
    | "Actor" => actor <$> actorSlot? inner payload
    | "Enum" =>
      if place.extensions.unwrapVariantNewtypes then none
      else (Reading.fields "EnumValue" choiceFields inner payload).bind choiceOfFields?
    | "Group" => group <$> setOfTree? (ofTree? depth) inner payload
    | "Array" => array <$> Reading.list (ofTree? depth) inner payload
    | _ => none
  | _, place, .record (some ⟨"Enum", _⟩) entries => do
    let inner ← place.enter? 2
    if place.extensions.unwrapVariantNewtypes then
      (Fields.of? inner choiceFields entries).bind choiceOfFields?
    else none
  | _, _, _ => none

end Property

end FlowScript
