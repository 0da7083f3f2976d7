import FlowScript.Text.Extend
import FlowScript.Text.Unprintable

/-!
# Escaped text

Quotes, the backslash and the usual blanks have short escapes. Characters that are not printed and
those that are shown as part of the one before are written by number.
-/

namespace FlowScript.Text

/-- A character by number. -/
def numberEscape (c : Char) : List Char :=
  '\x5c' :: 'u' :: '\x7b' :: Nat.toDigits 16 c.toNat ++ ['\x7d']

/-- A character as it is written inside quotes. -/
def escapeChar (c : Char) : List Char :=
  match c with
  | '\x00' => ['\x5c', '0']
  | '\t' => ['\x5c', 't']
  | '\r' => ['\x5c', 'r']
  | '\n' => ['\x5c', 'n']
  | '\x27' => ['\x5c', '\x27']
  | '\x22' => ['\x5c', '\x22']
  | '\x5c' => ['\x5c', '\x5c']
  | c => if isGraphemeExtend c || isUnprintable c then numberEscape c else [c]

/-- A text in quotes. -/
def quoted (s : String) : String :=
  String.ofList ('\x22' :: s.toList.flatMap escapeChar ++ ['\x22'])

end FlowScript.Text
