import FlowScript.Ron.Lexeme

/-!
# Number literals of RON

Integers may be given in base two, eight, ten or sixteen, floats in decimal only. Both may be
grouped by underscores and may end in the name of their type.
-/

namespace FlowScript.Ron

/-- Takes a sign off the front and says whether it is a minus. -/
def takeSign : List Char → Bool × List Char
  | '+' :: cs => (false, cs)
  | '-' :: cs => (true, cs)
  | cs => (false, cs)

/-- Whether a character can be a digit of an integer or stand between digits. -/
def isIntChar (c : Char) : Bool := (hexDigit? c).isSome || c == '_'

/-- The number written by digits of a base, underscores passed over. -/
def digitsValue (base : Nat) : Nat → List Char → Option Nat
  | value, [] => some value
  | value, c :: cs =>
    if c = '_' then digitsValue base value cs
    else
      match hexDigit? c with
      | some d => if d < base then digitsValue base (base * value + d) cs else none
      | none => none

/-- The number written by digits, which begin with a digit. -/
def magnitude? (base : Nat) : List Char → Option Nat
  | [] | '_' :: _ => none
  | cs => digitsValue base 0 cs

/-- Takes the mark of a base off the front; digits without one are of base ten. -/
def takeBase : List Char → Nat × List Char
  | '0' :: 'b' :: cs => (2, cs)
  | '0' :: 'o' :: cs => (8, cs)
  | '0' :: 'x' :: cs => (16, cs)
  | cs => (10, cs)

/-- An integer type of a literal. -/
structure IntType where
  suffix : String
  low : Int
  high : Int

/-- The signed integers of a number of bits. -/
def IntType.signed (suffix : String) (bits : Nat) : IntType :=
  ⟨suffix, -(Nat.pow 2 (bits - 1) : Nat), (Nat.pow 2 (bits - 1) : Nat) - 1⟩

/-- The natural numbers of a number of bits. -/
def IntType.unsigned (suffix : String) (bits : Nat) : IntType :=
  ⟨suffix, 0, (Nat.pow 2 bits : Nat) - 1⟩

/-- Signed integers of sixty-four bits. -/
def IntType.i64 : IntType := .signed "i64" 64

/-- Unsigned integers of sixty-four bits. -/
def IntType.u64 : IntType := .unsigned "u64" 64

/-- The integer types that a literal can name. -/
def IntType.all : List IntType :=
  [ .signed "i8" 8, .signed "i16" 16, .signed "i32" 32, .i64
  , .unsigned "u8" 8, .unsigned "u16" 16, .unsigned "u32" 32, .u64 ]

/-- The value of an integer literal of a type, whose name may follow the digits. -/
def IntType.read? (type : IntType) (literal : String) : Option Int := do
  let (negative, body) := takeSign literal.toList
  let (base, rest) := takeBase body
  let n ← magnitude? base (rest.takeWhile isIntChar)
  let suffix := String.ofList (rest.dropWhile isIntChar)
  let value : Int := if negative then -n else n
  if (suffix = "" ∨ suffix = type.suffix) ∧ type.low ≤ value ∧ value ≤ type.high then some value
  else none

/-- Whether a character can stand in the number of a float. -/
def isFloatChar (c : Char) : Bool := c.isDigit || c ∈ ['e', 'E', '.', '+', '-', '_']

/-- Takes underscores out. One may stand behind a digit or the exponent mark; the flag says whether
it may stand here. -/
def ungroup : Bool → List Char → Option (List Char)
  | _, [] => some []
  | allowed, '_' :: cs => if allowed then ungroup true cs else none
  | allowed, c :: cs =>
    let next := if c == '.' then false else allowed || c.isDigit || c == 'e' || c == 'E'
    (ungroup next cs).map (c :: ·)

/-- The exponent of a float, if the text is one. -/
def exponent? : List Char → Option Int
  | [] => some 0
  | e :: cs =>
    if e == 'e' || e == 'E' then
      let (negative, digits) := takeSign cs
      if !digits.isEmpty && digits.all Char.isDigit then
        (digitsValue 10 0 digits).map fun n => if negative then -(n : Int) else n
      else none
    else none

/-- The float written by digits, a point and an exponent, of which at least one digit must stand
around the point. -/
def decimal? (cs : List Char) : Option Float := do
  let (negative, body) := takeSign cs
  let whole := body.takeWhile Char.isDigit
  let rest := body.dropWhile Char.isDigit
  let (places, tail) := match rest with
    | '.' :: more => (more.takeWhile Char.isDigit, more.dropWhile Char.isDigit)
    | rest => ([], rest)
  if whole.isEmpty && places.isEmpty then none
  else do
    let exponent ← exponent? tail
    let digits ← digitsValue 10 0 (whole ++ places)
    some (Decimal.readFloat negative ⟨digits, exponent - places.length⟩)

/-- The floats that are written by a name. -/
def namedFloat? : String → Option Float
  | "inf" | "+inf" => some (1 / 0)
  | "-inf" => some (-1 / 0)
  | "NaN" | "+NaN" | "-NaN" => some (0 / 0)
  | _ => none

/-- The value of a float literal whose type, if named, has one of the given names. -/
def readFloat? (suffixes : List String) (literal : String) : Option Float :=
  let named := suffixes.findSome? fun s =>
    if literal.endsWith s then namedFloat? (literal.dropEnd s.length).toString else none
  match namedFloat? literal <|> named with
  | some x => some x
  | none =>
    let cs := literal.toList
    let suffix := String.ofList (cs.dropWhile isFloatChar)
    if suffix = "" ∨ suffix ∈ suffixes then
      (ungroup false (cs.takeWhile isFloatChar)).bind decimal?
    else none

/-- Whether a literal is a number of any type. -/
def isNumber (literal : String) : Bool :=
  (readFloat? ["f32", "f64"] literal).isSome ||
    IntType.all.any fun type => (type.read? literal).isSome

end FlowScript.Ron
