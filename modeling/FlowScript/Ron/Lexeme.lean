import FlowScript.Ron.Tree
import FlowScript.Text.Identifier

/-!
# Lexemes of RON

Blanks and comments, names, numbers and quoted texts. Each reader takes the text from its first
character on and answers what is left behind the lexeme.
-/

namespace FlowScript.Ron

/-- The blanks between lexemes. -/
def isBlank (c : Char) : Bool :=
  c ∈ [' ', '\t', '\n', '\r', '\x0b', '\x0c', '\u0085', '\u200e', '\u200f', '\u2028', '\u2029']

/-- Where the reader of blanks is. -/
inductive Gap where
  | between
  /-- In a comment that ends with the line. -/
  | line
  /-- In a comment that is nested in the given number of others. -/
  | block (outer : Nat)

/-- Skips blanks and comments. An open comment, and a slash that begins none, are refused. -/
def skipGap : Gap → List Char → Option (List Char)
  | .between, [] => some []
  | .between, '/' :: '/' :: cs => skipGap .line cs
  | .between, '/' :: '*' :: cs => skipGap (.block 0) cs
  | .between, '/' :: _ => none
  | .between, c :: cs => if isBlank c then skipGap .between cs else some (c :: cs)
  | .line, [] => some []
  | .line, c :: cs => if c = '\n' then skipGap .between cs else skipGap .line cs
  | .block _, [] => none
  | .block n, '/' :: '*' :: cs => skipGap (.block (n + 1)) cs
  | .block 0, '*' :: '/' :: cs => skipGap .between cs
  | .block (n + 1), '*' :: '/' :: cs => skipGap (.block n) cs
  | .block n, _ :: cs => skipGap (.block n) cs

/-- Skips blanks and comments between lexemes. -/
def blanks (cs : List Char) : Option (List Char) := skipGap .between cs

/-- Takes a given text off the front. -/
def literal? : List Char → List Char → Option (List Char)
  | [], cs => some cs
  | a :: as, c :: cs => if a = c then literal? as cs else none
  | _ :: _, [] => none

/-- Whether a raw name can go on with a character. -/
def isRawContinue (c : Char) : Bool := c ∈ ['.', '+', '-'] || Text.isIdentContinue c

/-- Reads a name. What begins a quoted text, such as `r` before a quote, is no name. -/
def ident? : List Char → Option (Ident × List Char)
  | 'b' :: '\x22' :: _ | 'b' :: '\x27' :: _ | 'b' :: 'r' :: '\x22' :: _ | 'b' :: 'r' :: '#' :: _
  | 'r' :: '\x22' :: _ | 'r' :: '#' :: '\x22' :: _ | 'r' :: '#' :: '#' :: _ => none
  | 'r' :: '#' :: cs =>
    let name := cs.takeWhile isRawContinue
    if name.isEmpty then none else some (⟨String.ofList name, true⟩, cs.dropWhile isRawContinue)
  | c :: cs =>
    if c == '_' || Text.isIdentStart c then
      some (⟨String.ofList (c :: cs.takeWhile Text.isIdentContinue), false⟩,
        cs.dropWhile Text.isIdentContinue)
    else none
  | [] => none

/-- The characters of which numbers are made. -/
def isNumberChar (c : Char) : Bool := c.isAlphanum || c ∈ ['_', '.', '+', '-']

/-- Splits off all that could belong to a number. Two points end it, as they belong to a range. -/
def numberRun : List Char → List Char × List Char
  | '.' :: '.' :: cs => ([], '.' :: '.' :: cs)
  | c :: cs =>
    if isNumberChar c then
      let (run, rest) := numberRun cs
      (c :: run, rest)
    else ([], c :: cs)
  | [] => ([], [])

/-- The value of a hexadecimal digit. -/
def hexDigit? (c : Char) : Option Nat :=
  if '0' ≤ c ∧ c ≤ '9' then some (c.toNat - 48)
  else if 'a' ≤ c ∧ c ≤ 'f' then some (c.toNat - 87)
  else if 'A' ≤ c ∧ c ≤ 'F' then some (c.toNat - 55)
  else none

/-- Reads a byte given by two hexadecimal digits. -/
def hexByte? : List Char → Option (UInt8 × List Char)
  | a :: b :: cs => do some ((16 * (← hexDigit? a) + (← hexDigit? b)).toUInt8, cs)
  | _ => none

/-- The character that some bytes encode. -/
def utf8Char? (bytes : List UInt8) : Option Char :=
  match (String.fromUTF8? ⟨bytes.toArray⟩).map (·.toList) with
  | some [c] => some c
  | _ => none

/-- Reads further bytes until they encode a character, at most as many as the number says. -/
def moreBytes : Nat → List UInt8 → List Char → Option (Char × List Char)
  | 0, _, _ => none
  | n + 1, bytes, '\x5c' :: 'x' :: cs =>
    match hexByte? cs with
    | none => none
    | some (b, rest) =>
      match utf8Char? (bytes ++ [b]) with
      | some c => some (c, rest)
      | none => moreBytes n (bytes ++ [b]) rest
  | _, _, _ => none

/-- The character of a number, if it has one. -/
def scalar? (n : Nat) : Option Char := if n.isValidChar then some (Char.ofNat n) else none

/-- Reads up to the given number of hexadecimal digits and the brace behind them. -/
def bracedNumber : Nat → Nat → Bool → List Char → Option (Nat × List Char)
  | _, value, true, '\x7d' :: cs => some (value, cs)
  | fuel + 1, value, _, c :: cs => do bracedNumber fuel (16 * value + (← hexDigit? c)) true cs
  | _, _, _, _ => none

/-- How the byte escapes of a quoted text are read. -/
inductive ByteEscapes where
  /-- One after another, as the encoding of a character. -/
  | joined
  /-- Each by itself, as a character. -/
  | single
  /-- Each by itself, as any byte. -/
  | bytes

/-- Reads what follows a backslash. -/
def escape? (mode : ByteEscapes) : List Char → Option (Char × List Char)
  | '\x27' :: cs => some ('\x27', cs)
  | '\x22' :: cs => some ('\x22', cs)
  | '\x5c' :: cs => some ('\x5c', cs)
  | 'n' :: cs => some ('\n', cs)
  | 'r' :: cs => some ('\r', cs)
  | 't' :: cs => some ('\t', cs)
  | '0' :: cs => some ('\x00', cs)
  | 'x' :: cs => do
    let (b, rest) ← hexByte? cs
    if b < 128 then some (Char.ofNat b.toNat, rest)
    else
      match mode with
      | .bytes => some (Char.ofNat b.toNat, rest)
      | .single => none
      | .joined => moreBytes 3 [b] rest
  | 'u' :: '\x7b' :: cs => do
    let (n, rest) ← bracedNumber 6 0 false cs
    some (← scalar? n, rest)
  | _ => none

/-- The blanks that are left out when lines of a quoted text are joined. -/
def isMargin (c : Char) : Bool := c ∈ [' ', '\t', '\n', '\r']

/-- Reads a quoted text behind its opening quote. A backslash at the end of a line joins it with
the next one, without the blanks between. The first argument bounds the number of steps. -/
def quotedRest (mode : ByteEscapes) : Nat → List Char → Option (List Char × List Char)
  | 0, _ => none
  | _, [] => none
  | _, '\x22' :: cs => some ([], cs)
  | fuel + 1, '\x5c' :: '\n' :: cs | fuel + 1, '\x5c' :: '\r' :: '\n' :: cs =>
    quotedRest mode fuel (cs.dropWhile isMargin)
  | fuel + 1, '\x5c' :: cs => do
    let (c, rest) ← escape? mode cs
    let (text, left) ← quotedRest mode fuel rest
    some (c :: text, left)
  | fuel + 1, c :: cs => do
    let (text, left) ← quotedRest mode fuel cs
    some (c :: text, left)

/-- Reads a text up to the given ending. -/
def upTo (ending : List Char) : List Char → Option (List Char × List Char)
  | [] => none
  | c :: cs =>
    match literal? ending (c :: cs) with
    | some rest => some ([], rest)
    | none => (upTo ending cs).map fun (text, rest) => (c :: text, rest)

/-- Reads a text without escapes, behind the `r` that announces it. -/
def rawText (cs : List Char) : Option (List Char × List Char) :=
  let hashes := cs.takeWhile (· == '#')
  match cs.dropWhile (· == '#') with
  | '\x22' :: rest => upTo ('\x22' :: hashes) rest
  | _ => none

/-- Reads a character behind its opening quote. -/
def charRest (mode : ByteEscapes) : List Char → Option (List Char)
  | '\x5c' :: cs =>
    match escape? mode cs with
    | some (_, '\x27' :: rest) => some rest
    | _ => none
  | _ :: '\x27' :: rest => some rest
  | _ => none

/-- Reads a quoted text or a literal of characters or bytes. -/
def quotedTree : List Char → Option (Tree × List Char)
  | '\x22' :: cs => (quotedRest .joined (cs.length + 1) cs).map fun (t, rest) =>
    (.text (String.ofList t), rest)
  | 'r' :: cs => (rawText cs).map fun (t, rest) => (.text (String.ofList t), rest)
  | '\x27' :: cs => (charRest .single cs).map fun rest => (.otherLiteral, rest)
  | 'b' :: '\x27' :: '\x5c' :: 'u' :: _ => none
  | 'b' :: '\x27' :: cs =>
    if cs.head?.any (·.toNat < 128) then
      (charRest .bytes cs).map fun rest => (.otherLiteral, rest)
    else none
  | 'b' :: '\x22' :: cs => (quotedRest .bytes (cs.length + 1) cs).map fun (_, rest) =>
    (.otherLiteral, rest)
  | 'b' :: 'r' :: cs => (rawText cs).map fun (_, rest) => (.otherLiteral, rest)
  | _ => none

end FlowScript.Ron
