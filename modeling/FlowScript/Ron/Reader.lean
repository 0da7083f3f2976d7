import FlowScript.Ron.Number

/-!
# Reading RON documents

A document is a value, possibly behind attributes that switch extensions on. The value is read as
it is spelled, without regard to what is expected.
-/

namespace FlowScript.Ron

/-- What attributes of a document change about the spelling of values. -/
structure Extensions where
  /-- A value may stand where an optional one is expected. -/
  implicitSome : Bool := false
  /-- A wrapped value is written without its wrapper. -/
  unwrapNewtypes : Bool := false
  /-- A record in a variant is written without a second pair of brackets. -/
  unwrapVariantNewtypes : Bool := false
  /-- Records and wrappers must be named. -/
  explicitNames : Bool := false
deriving DecidableEq, Inhabited

/-- Switches an extension on by name. -/
def Extensions.enable (extensions : Extensions) : String → Option Extensions
  | "implicit_some" => some { extensions with implicitSome := true }
  | "unwrap_newtypes" => some { extensions with unwrapNewtypes := true }
  | "unwrap_variant_newtypes" => some { extensions with unwrapVariantNewtypes := true }
  | "explicit_struct_names" => some { extensions with explicitNames := true }
  | _ => none

/-- Takes given texts off the front, each with the blanks behind it. -/
def literals? : List String → List Char → Option (List Char)
  | [], cs => some cs
  | s :: rest, cs => do literals? rest (← blanks (← literal? s.toList cs))

/-- Reads the names of extensions in an attribute. -/
def extensionNames : Nat → Extensions → List Char → Option (Extensions × List Char)
  | 0, _, _ => none
  | fuel + 1, extensions, cs => do
    let (name, rest) ← ident? cs
    let enabled ← extensions.enable name.name
    match ← blanks rest with
    | ',' :: more =>
      let next ← blanks more
      if next.head?.any fun c => c == '_' || Text.isIdentStart c then
        extensionNames fuel enabled next
      else some (enabled, next)
    | rest => some (enabled, rest)

/-- Passes over the text of an attribute that tells tools what the document is. -/
def description (cs : List Char) : Option (List Char) := do
  match ← quotedTree (← literals? ["type", "="] cs <|> literals? ["schema", "="] cs) with
  | (.text _, rest) => blanks rest
  | _ => none

/-- Reads the attributes in front of the value. -/
def attributes : Nat → Extensions → List Char → Option (Extensions × List Char)
  | 0, _, _ => none
  | fuel + 1, extensions, '#' :: cs => do
    let inner ← literals? ["#", "!", "["] ('#' :: cs)
    match literals? ["enable", "("] inner with
    | some names =>
      let (enabled, rest) ← extensionNames (names.length + 1) extensions names
      attributes fuel enabled (← literals? [")", "]"] rest)
    | none => attributes fuel extensions (← literals? ["]"] (← description inner))
  | _, extensions, cs => some (extensions, cs)

/-- Passes over what may bound a range: a number or a byte. -/
def bound? (cs : List Char) : Option (List Char) :=
  match ident? cs with
  | some (name, rest) => if name.isFloat then some rest else none
  | none =>
    match cs with
    | 'b' :: '\x27' :: _ => (quotedTree cs).map (·.2)
    | _ =>
      let (run, rest) := numberRun cs
      if isNumber (String.ofList run) then some rest else none

/-- Passes over the points of a range and its upper bound, which may be left out unless it is to be
included. -/
def upperBound? : List Char → Option (List Char)
  | '.' :: '.' :: '=' :: cs => bound? cs
  | '.' :: '.' :: cs => some ((bound? cs).getD cs)
  | _ => none

/-- Passes over a range, either of whose bounds may be left out. -/
def range? (cs : List Char) : Option (List Char) :=
  upperBound? cs <|> (bound? cs).bind upperBound?

/-- Whether a bracket encloses fields: a name and a colon come first. -/
def startsField (cs : List Char) : Bool :=
  match ident? cs with
  | some (_, rest) => (blanks rest).any fun more => more.head? == some ':'
  | none => false

/-- The kinds of literals that a glance passes over. -/
inductive Literal where
  | char
  | text
  | bytes

/-- Whether a literal of a kind may begin here. -/
def Literal.begins : Literal → List Char → Bool
  | .char, c :: _ => c == '\x27'
  | .text, c :: _ => c == '\x22' || c == 'r'
  | .bytes, 'b' :: c :: _ => c == '\x22' || c == 'r'
  | _, _ => false

/-- Passes over a literal of a kind, if there is one. -/
def Literal.pass (literal : Literal) (cs : List Char) : List Char :=
  if literal.begins cs then ((quotedTree cs).map (·.2)).getD cs else cs

/-- Whether a comma that is not the last one comes before the open brackets are closed. Brackets and
commas in characters and texts do not count. A byte is not recognised, so that its second quote may
be taken for the first quote of a character. The first argument bounds the number of steps, the
second is the number of open brackets. -/
def glance : Nat → Nat → List Char → Option Bool
  | 0, _, _ => none
  | _, 0, _ => some false
  | fuel + 1, outer + 1, cs => do
    match Literal.bytes.pass (Literal.text.pass (Literal.char.pass (← blanks cs))) with
    | [] => none
    | c :: rest =>
      if c ∈ ['(', '[', '\x7b'] then glance fuel (outer + 2) rest
      else if c ∈ [')', ']', '\x7d'] then glance fuel outer rest
      else if c = ',' ∧ outer = 0 then return (← blanks rest).head? != some ')'
      else glance fuel (outer + 1) rest

/-- Whether a bracket holds several parts, as far as a glance at the text behind it tells. -/
def several? (cs : List Char) : Option Bool := do
  let start ← blanks cs
  let rest ← (ident? start).elim (some start) fun (_, rest) => blanks rest
  glance (rest.length + 1) 1 rest

mutual

/-- Reads a value. The first argument bounds the number of steps, the second says how many values
may still be nested in one another. -/
def readTree : Nat → Nat → List Char → Option (Tree × List Char)
  | 0, _, _ | _, 0, _ => none
  | fuel + 1, depth + 1, cs =>
    match range? cs with
    | some rest => some (.otherLiteral, rest)
    | none =>
      match ident? cs with
      | some (name, rest) => do
        let next ← blanks rest
        match next with
        | '(' :: inner =>
          match ← readBracket fuel depth (some name) inner with
          | (.tuple (some ident) items, rest) =>
            if ident.isSome then some (.enclosed (several? inner) items, rest)
            else some (.tuple (some ident) items, rest)
          | other => some other
        | _ =>
          if name.isSome then
            (readTree fuel depth next).map fun (payload, rest) => (.announced payload, rest)
          else some (.word name, rest)
      | none =>
        match cs with
        | '(' :: inner => readBracket fuel depth none inner
        | '[' :: inner =>
          (readItems fuel depth ']' inner).map fun (items, rest) => (.list items, rest)
        | '\x7b' :: inner =>
          (readEntries fuel depth inner).map fun (entries, rest) => (.map entries, rest)
        | c :: _ =>
          if c.isDigit || c ∈ ['+', '-', '.'] then
            let (run, rest) := numberRun cs
            some (.number (String.ofList run), rest)
          else quotedTree cs
        | [] => none
termination_by structural fuel => fuel

/-- Reads fields or items in round brackets, behind the opening one. -/
def readBracket : Nat → Nat → Option Ident → List Char → Option (Tree × List Char)
  | 0, _, _, _ => none
  | fuel + 1, depth, name, cs => do
    let inner ← blanks cs
    if startsField inner then
      (readFields fuel depth inner).map fun (fields, rest) => (.record name fields, rest)
    else (readItems fuel depth ')' inner).map fun (items, rest) => (.tuple name items, rest)
termination_by structural fuel => fuel

/-- Reads items up to the closing bracket. One comma may follow the last item. -/
def readItems : Nat → Nat → Char → List Char → Option (List Tree × List Char)
  | 0, _, _, _ => none
  | fuel + 1, depth, close, cs => do
    let start ← blanks cs
    if start.head? = some close then some ([], start.tail)
    else
      let (item, rest) ← readTree fuel depth start
      match ← blanks rest with
      | ',' :: more => do
        let (items, left) ← readItems fuel depth close more
        some (item :: items, left)
      | c :: more => if c = close then some ([item], more) else none
      | [] => none
termination_by structural fuel => fuel

/-- Reads fields up to the closing bracket. One comma may follow the last field. -/
def readFields : Nat → Nat → List Char → Option (List (String × Tree) × List Char)
  | 0, _, _ => none
  | fuel + 1, depth, cs => do
    let start ← blanks cs
    if start.head? = some ')' then some ([], start.tail)
    else
      let (name, rest) ← ident? start
      let value ← literals? [":"] (← blanks rest)
      let (item, rest) ← readTree fuel depth value
      match ← blanks rest with
      | ',' :: more => do
        let (fields, left) ← readFields fuel depth more
        some ((name.name, item) :: fields, left)
      | ')' :: more => some ([(name.name, item)], more)
      | _ => none
termination_by structural fuel => fuel

/-- Reads entries up to the closing brace. One comma may follow the last entry. -/
def readEntries : Nat → Nat → List Char → Option (List (Tree × Tree) × List Char)
  | 0, _, _ => none
  | fuel + 1, depth, cs => do
    let start ← blanks cs
    if start.head? = some '\x7d' then some ([], start.tail)
    else
      let (key, rest) ← readTree fuel depth start
      let value ← literals? [":"] (← blanks rest)
      let (item, rest) ← readTree fuel depth value
      match ← blanks rest with
      | ',' :: more => do
        let (entries, left) ← readEntries fuel depth more
        some ((key, item) :: entries, left)
      | '\x7d' :: more => some ([(key, item)], more)
      | _ => none
termination_by structural fuel => fuel

end

/-- A document: what its attributes switch on, and its value. -/
structure Document where
  extensions : Extensions
  tree : Tree

/-- Reads a whole document. -/
def Document.parse? (text : String) : Option Document := do
  let start ← blanks text.toList
  let (extensions, body) ← attributes (start.length + 1) {} start
  let (tree, rest) ← readTree (2 * text.length + 2) (Tree.maxDepth + 1) body
  match ← blanks rest with
  | [] => some ⟨extensions, tree⟩
  | _ => none

end FlowScript.Ron
