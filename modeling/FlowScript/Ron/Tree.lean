import FlowScript.Decimal.Layout
import FlowScript.Text.Escape

/-!
# RON values

The value tree of a RON document, and the form in which it is written: one field or item per line,
indented by four blanks, with a comma after each.
-/

namespace FlowScript.Ron

/-- A bare name. A raw name never stands for a keyword. -/
structure Ident where
  name : String
  raw : Bool := false
deriving DecidableEq, Inhabited

namespace Ident

/-- Whether a name is a float. -/
def isFloat (ident : Ident) : Bool :=
  !ident.raw && ident.name ∈ ["inf", "inff32", "inff64", "NaN", "NaNf32", "NaNf64"]

/-- Whether a name is a value by itself, which takes no brackets. -/
def isKeyword (ident : Ident) : Bool :=
  ident.isFloat || !ident.raw && ident.name ∈ ["true", "false", "None"]

/-- Whether a name announces an optional value. -/
def isSome (ident : Ident) : Bool := !ident.raw && ident.name == "Some"

end Ident

/-- A value as it is spelled; what a spelling means depends on what is expected. -/
inductive Tree where
  | number (literal : String)
  | text (value : String)
  /-- A literal of a character or of bytes, or a range of numbers, which nothing here expects. -/
  | otherLiteral
  /-- A name with nothing after it. -/
  | word (ident : Ident)
  /-- An optional value that is announced but not enclosed. -/
  | announced (payload : Tree)
  /-- An optional value that is announced and enclosed. A glance at the text has told whether the
  bracket holds several parts, unless it got lost. -/
  | enclosed (several : Option Bool) (items : List Tree)
  | tuple (ident : Option Ident) (items : List Tree)
  | record (ident : Option Ident) (fields : List (String × Tree))
  | list (items : List Tree)
  | map (entries : List (Tree × Tree))
deriving Inhabited

namespace Tree

/-- A boolean. -/
def bool (b : Bool) : Tree := word ⟨if b then "true" else "false", false⟩

/-- An integer. -/
def int (i : Int) : Tree := number i.repr

/-- A float. -/
def float (x : Float) : Tree := number (Decimal.Layout.marked.render x)

/-- A choice without payload. -/
def choice (name : String) : Tree := word ⟨name, false⟩

/-- A choice with a payload. -/
def variant (name : String) (payload : Tree) : Tree := tuple (some ⟨name, false⟩) [payload]

/-- An unnamed record. -/
def unnamed (fields : List (String × Tree)) : Tree := record none fields

mutual

/-- How deep values are nested in one another. -/
def depth : Tree → Nat
  | number _ | text _ | otherLiteral | word _ => 0
  | announced payload => depth payload + 1
  | enclosed _ items | tuple _ items | list items => depthItems items
  | record _ fields => depthFields fields
  | map entries => depthEntries entries

/-- How deep items are nested, counting the items. -/
def depthItems : List Tree → Nat
  | [] => 0
  | t :: rest => max (depth t + 1) (depthItems rest)

/-- How deep fields are nested, counting the fields. -/
def depthFields : List (String × Tree) → Nat
  | [] => 0
  | (_, t) :: rest => max (depth t + 1) (depthFields rest)

/-- How deep entries are nested, counting the entries. -/
def depthEntries : List (Tree × Tree) → Nat
  | [] => 0
  | (k, v) :: rest => max (max (depth k) (depth v) + 1) (depthEntries rest)

end

/-- The start of a line. -/
def margin (level : Nat) : String := "\n" ++ String.ofList (List.replicate (4 * level) ' ')

/-- The name in front of a bracket. -/
def identText (ident : Option Ident) : String := ident.elim "" (·.name)

mutual

/-- The written form of a value whose first line is indented by `level`. -/
def render (level : Nat) : Tree → String
  | number literal => literal
  | text value => Text.quoted value
  | otherLiteral => ""
  | word ident => ident.name
  | announced payload => "Some " ++ render level payload
  | enclosed _ items => "Some(" ++ renderInline level true items ++ ")"
  | tuple ident items => identText ident ++ "(" ++ renderInline level true items ++ ")"
  | record ident [] => identText ident ++ "()"
  | record ident fields =>
    identText ident ++ "(" ++ renderFields (level + 1) fields ++ margin level ++ ")"
  | list [] => "[]"
  | list items => "[" ++ renderItems (level + 1) items ++ margin level ++ "]"
  | map [] => "\x7b\x7d"
  | map entries => "\x7b" ++ renderEntries (level + 1) entries ++ margin level ++ "\x7d"

/-- Items on one line; the flag marks the first one. -/
def renderInline (level : Nat) : Bool → List Tree → String
  | _, [] => ""
  | first, t :: rest =>
    (if first then "" else ", ") ++ render level t ++ renderInline level false rest

/-- Fields, one per line. -/
def renderFields (level : Nat) : List (String × Tree) → String
  | [] => ""
  | (name, t) :: rest =>
    margin level ++ name ++ ": " ++ render level t ++ "," ++ renderFields level rest

/-- Items, one per line. -/
def renderItems (level : Nat) : List Tree → String
  | [] => ""
  | t :: rest => margin level ++ render level t ++ "," ++ renderItems level rest

/-- Entries, one per line. -/
def renderEntries (level : Nat) : List (Tree × Tree) → String
  | [] => ""
  | (k, v) :: rest =>
    margin level ++ render level k ++ ": " ++ render level v ++ "," ++ renderEntries level rest

end

/-- How deep values may be nested. -/
def maxDepth : Nat := 128

/-- The written form of a document, unless it is nested too deep. -/
def write? (tree : Tree) : Option String :=
  if tree.depth ≤ maxDepth then some (tree.render 0) else none

end Tree

end FlowScript.Ron
