/-!
# The shortest decimal that reads back as a given binary number

A positive binary number `m * 2 ^ q` stands for every real that rounds to it. Among the decimals
in that interval, those with the fewest digits are written; of two such neighbours the nearer, and
the larger one when both are equally near.
-/

namespace FlowScript.Decimal

/-- The number `digits * 10 ^ exponent`. -/
structure Scaled where
  digits : Nat
  exponent : Int
deriving DecidableEq, Repr

/-- A positive binary number `m * 2 ^ q`; `narrow` says that the next smaller number is only half
as far away as the next larger one. -/
structure Binary where
  m : Nat
  q : Int
  narrow : Bool
deriving DecidableEq, Repr

/-- How many decimal digits a number has. -/
def width (n : Nat) : Nat := (Nat.toDigits 10 n).length

/-- The place of the leading digit: `num / den` lies below `10 ^ place` and not below a tenth of
that. -/
def place (num den : Nat) : Int :=
  if den ≤ num then width (num / den)
  else 1 - (width ((den + num - 1) / num - 1) : Int)

/-- Drops trailing zero digits. The first argument bounds how many. -/
def Scaled.strip : Nat → Scaled → Scaled
  | 0, x => x
  | n + 1, x => if x.digits % 10 = 0 then strip n ⟨x.digits / 10, x.exponent + 1⟩ else x

/-- The point of the grid of `10 ^ e` that is nearest to `x` among those that round to it, if one
of the two points next to `x` does. -/
def Binary.onGrid (x : Binary) (e : Int) : Option Scaled :=
  let scale := Nat.pow 2 (x.q - 2).toNat * Nat.pow 10 (-e).toNat
  let unit := Nat.pow 2 (2 - x.q).toNat * Nat.pow 10 e.toNat
  let mid := 4 * x.m * scale
  let low := (4 * x.m - if x.narrow then 1 else 2) * scale
  let high := (4 * x.m + 2) * scale
  let inside (c : Nat) : Bool :=
    if x.m % 2 = 0 then low ≤ c * unit && c * unit ≤ high else low < c * unit && c * unit < high
  let below := mid / unit
  let above := below + 1
  if mid % unit = 0 then some ⟨below, e⟩
  else
    match inside below && below ≠ 0, inside above with
    | true, true => some ⟨if 2 * (mid % unit) < unit then below else above, e⟩
    | true, false => some ⟨below, e⟩
    | false, true => some ⟨above, e⟩
    | false, false => none

/-- Tries grids of more and more digits; seventeen digits always suffice for a double. -/
def Binary.search (x : Binary) (top : Int) : Nat → Nat → Scaled
  | 0, n => (x.onGrid (top - n)).getD ⟨0, 0⟩
  | fuel + 1, n =>
    match x.onGrid (top - n) with
    | some d => d
    | none => x.search top fuel (n + 1)

/-- The shortest decimal that rounds to `x`, without trailing zero digits. -/
def Binary.shortest (x : Binary) : Scaled :=
  let top := place (x.m * Nat.pow 2 x.q.toNat) (Nat.pow 2 (-x.q).toNat)
  Scaled.strip 20 (x.search top 16 1)

/-- The parts of a floating-point number. -/
inductive Class where
  | nan
  | infinite (negative : Bool)
  | zero (negative : Bool)
  | finite (negative : Bool) (magnitude : Binary)
deriving DecidableEq, Repr

/-- Takes the sixty-four bits of a double apart. -/
def Class.ofBits (bits : UInt64) : Class :=
  let n := bits.toNat
  let negative : Bool := n / Nat.pow 2 63 = 1
  let exponent : Nat := n / Nat.pow 2 52 % Nat.pow 2 11
  let fraction : Nat := n % Nat.pow 2 52
  if exponent = 2047 then
    if fraction = 0 then .infinite negative else .nan
  else if exponent = 0 then
    if fraction = 0 then .zero negative else .finite negative ⟨fraction, -1074, false⟩
  else
    .finite negative ⟨Nat.pow 2 52 + fraction, (exponent : Int) - 1075, fraction = 0 ∧ 1 < exponent⟩

/-- The parts of a double. -/
def Class.ofFloat (x : Float) : Class := .ofBits x.toBits

end FlowScript.Decimal
