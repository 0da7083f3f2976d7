import FlowScript.Ron.Reader

/-!
# Taking values out of RON trees

Records may name their fields in any order and may have fields that nobody asked for; those are
passed over, whatever they hold, as long as they are values. How deep values are nested is counted
in levels: a bracket opens one for itself and another for each of its parts, what announces or
wraps a single value opens one only.
-/

namespace FlowScript.Ron

/-- What the surroundings of a value decide about its reading. -/
structure Place where
  extensions : Extensions
  /-- How many levels may still be opened. -/
  levels : Nat
deriving DecidableEq, Inhabited

namespace Place

/-- The place behind a number of further levels, if they may be opened. -/
def enter? (place : Place) (count : Nat) : Option Place :=
  if count ≤ place.levels then some { place with levels := place.levels - count } else none

/-- The place of the parts of a bracket. -/
def bracket? (place : Place) (empty : Bool) : Option Place := place.enter? (if empty then 1 else 2)

/-- Whether the name in front of a bracket is the expected one; it may be left out unless names are
required. -/
def admits (place : Place) (expected : String) : Option Ident → Bool
  | none => !place.extensions.explicitNames
  | some ident => ident.name == expected

end Place

/-- How many levels the bracket of an optional value opens, if it may hold that many parts. An
unwrapped payload of several parts takes the bracket for its own. -/
def Extensions.optionalLevels? (extensions : Extensions) (several : Option Bool) (count : Nat) :
    Option Nat :=
  if !extensions.unwrapVariantNewtypes then if count = 1 then some 1 else none
  else if count = 0 then some 1
  else
    match several with
    | some true => some 3
    | some false => if count = 1 then some 1 else none
    | none => none

/-- Where the value of a document stands. -/
def Document.place (document : Document) : Place := ⟨document.extensions, Tree.maxDepth⟩

namespace Tree

mutual

/-- Whether a tree is a value when nothing particular is expected. -/
def isValue (place : Place) : Tree → Bool
  | number literal => isNumber literal
  | text _ | otherLiteral => true
  | word ident => !ident.isSome
  | announced payload =>
    place.extensions.implicitSome && (place.enter? 1).any fun inner => isValue inner payload
  | enclosed several items =>
    ((place.extensions.optionalLevels? several items.length).bind place.enter?).any fun inner =>
      areValues inner items
  | tuple none [] => true
  | tuple none items => (place.bracket? items.isEmpty).any fun inner => areValues inner items
  | tuple (some ident) items =>
    !ident.isKeyword && (place.bracket? items.isEmpty).any fun inner => areValues inner items
  | record none fields => (place.bracket? fields.isEmpty).any fun inner => areFields inner fields
  | record (some ident) fields =>
    if ident.isKeyword then false
    else if ident.isSome then
      place.extensions.unwrapVariantNewtypes &&
        (place.enter? 3).any fun inner => areFields inner fields
    else (place.bracket? fields.isEmpty).any fun inner => areFields inner fields
  | list items => (place.bracket? items.isEmpty).any fun inner => areValues inner items
  | map entries => (place.bracket? entries.isEmpty).any fun inner => areEntries inner entries

/-- Whether all trees are values. -/
def areValues (place : Place) : List Tree → Bool
  | [] => true
  | t :: rest => isValue place t && areValues place rest

/-- Whether all fields hold values. -/
def areFields (place : Place) : List (String × Tree) → Bool
  | [] => true
  | (_, t) :: rest => isValue place t && areFields place rest

/-- Whether all keys and entries are values. -/
def areEntries (place : Place) : List (Tree × Tree) → Bool
  | [] => true
  | (k, v) :: rest => isValue place k && isValue place v && areEntries place rest

end

end Tree

/-- A way to take a value out of a tree. -/
abbrev Reading (α : Type) := Place → Tree → Option α

namespace Reading

/-- Takes out a string. -/
def text : Reading String
  | _, .text value => some value
  | _, _ => none

/-- Takes out a boolean. -/
def bool : Reading Bool
  | _, .word ⟨"true", false⟩ => some true
  | _, .word ⟨"false", false⟩ => some false
  | _, _ => none

/-- Takes out an integer of a type. -/
def int (type : IntType) : Reading Int
  | _, .number literal => type.read? literal
  | _, _ => none

/-- Takes out a float of double precision. -/
def float : Reading Float
  | _, .number literal => readFloat? ["f64"] literal
  | _, .word ⟨name, false⟩ => readFloat? ["f64"] name
  | _, _ => none

/-- Takes out a list. -/
def list {α : Type} (item : Reading α) : Reading (List α)
  | place, .list items => do items.mapM (item (← place.bracket? items.isEmpty))
  | _, _ => none

/-- Takes out pairs, the first of which are strings. -/
def pairs {α : Type} (value : Reading α) : Reading (List (String × α))
  | place, .map entries => do
    let inner ← place.bracket? entries.isEmpty
    entries.mapM fun (k, v) => do return (← text inner k, ← value inner v)
  | _, _ => none

end Reading

/-- The fields of a record, and the place of their values. -/
structure Fields where
  place : Place
  entries : List (String × Tree)

namespace Fields

/-- Whether no known field is given twice and every other field holds a value. -/
def fit (known : List String) (fields : Fields) : Bool :=
  fields.entries.all (fun field => field.1 ∈ known || field.2.isValue fields.place) &&
    known.all fun name => (fields.entries.filter (·.1 == name)).length ≤ 1

/-- The fields of a record at a place, among them the known ones. -/
def of? (place : Place) (known : List String) (entries : List (String × Tree)) :
    Option Fields := do
  let fields : Fields := ⟨← place.bracket? entries.isEmpty, entries⟩
  if fields.fit known then some fields else none

/-- A field that must be given. -/
def get? {α : Type} (fields : Fields) (name : String) (read : Reading α) : Option α :=
  (fields.entries.lookup name).bind (read fields.place)

/-- A field that may be left out. -/
def getD? {α : Type} (fields : Fields) (name : String) (default : α) (read : Reading α) :
    Option α :=
  (fields.entries.lookup name).elim (some default) (read fields.place)

end Fields

/-- Takes out the fields of a record of a given name, among them the known ones. -/
def Reading.fields (name : String) (known : List String) : Reading Fields
  | place, .record ident entries =>
    if place.admits name ident then Fields.of? place known entries else none
  | place, .tuple ident [] => if place.admits name ident then Fields.of? place known [] else none
  | _, _ => none

end FlowScript.Ron
