import FlowScript.Decimal.Shortest

/-!
# How a double is written, and how a decimal is read

Two layouts are in use. The plain one never has an exponent and writes a whole number without a
point. The marked one always shows that the number is a double: a whole number ends in `.0`, and
magnitudes from `10 ^ 16` on or below `10 ^ (-4)` have an exponent.
-/

namespace FlowScript.Decimal

/-- The choices that a layout makes. -/
structure Layout where
  /-- Whether a whole number ends in `.0`. -/
  marksWhole : Bool
  /-- Whether large and small magnitudes have an exponent. -/
  hasExponent : Bool

/-- Positional always, and no point in a whole number. -/
def Layout.plain : Layout := ⟨false, false⟩

/-- A point or an exponent in every finite number. -/
def Layout.marked : Layout := ⟨true, true⟩

/-- A given number of zero digits. -/
def zeros (n : Nat) : String := String.ofList (List.replicate n '0')

/-- Digits and exponent in positional notation. -/
def Scaled.positional (x : Scaled) (marksWhole : Bool) : String :=
  let ds := Nat.toDigits 10 x.digits
  if 0 ≤ x.exponent then
    String.ofList ds ++ zeros x.exponent.toNat ++ (if marksWhole then ".0" else "")
  else
    let places := (-x.exponent).toNat
    if places < ds.length then
      String.ofList (ds.take (ds.length - places)) ++ "." ++
        String.ofList (ds.drop (ds.length - places))
    else "0." ++ zeros (places - ds.length) ++ String.ofList ds

/-- Digits and exponent with one digit before the point. -/
def Scaled.scientific (x : Scaled) : String :=
  let ds := Nat.toDigits 10 x.digits
  let power := x.exponent + (ds.length : Int) - 1
  let rest := ds.drop 1
  String.ofList (ds.take 1) ++ (if rest.isEmpty then "" else "." ++ String.ofList rest) ++ "e" ++
    power.repr

/-- A positive number in a layout. -/
def Layout.magnitude (layout : Layout) (x : Scaled) : String :=
  let top := x.exponent + (width x.digits : Int)
  if layout.hasExponent && (16 < top || top ≤ -4) then x.scientific
  else x.positional layout.marksWhole

/-- The sign of a number as it is written. -/
def sign (negative : Bool) : String := if negative then "-" else ""

/-- A double in a layout. -/
def Layout.render (layout : Layout) (x : Float) : String :=
  match Class.ofFloat x with
  | .nan => "NaN"
  | .infinite negative => sign negative ++ "inf"
  | .zero negative => sign negative ++ if layout.marksWhole then "0.0" else "0"
  | .finite negative magnitude => sign negative ++ layout.magnitude magnitude.shortest

/-- The double nearest to `digits * 10 ^ exponent`. Exponents far outside the range of doubles are
answered without computing the power. -/
def Scaled.toFloat (x : Scaled) : Float :=
  if x.digits = 0 then 0
  else
    let top := x.exponent + (width x.digits : Int)
    if top < -400 then 0
    else if 400 < top then 1 / 0
    else if 0 ≤ x.exponent then Float.ofScientific (x.digits * Nat.pow 10 x.exponent.toNat) false 0
    else Float.ofScientific x.digits true (-x.exponent).toNat

/-- The double nearest to a signed decimal; a negative zero keeps its sign. -/
def readFloat (negative : Bool) (x : Scaled) : Float :=
  if negative then -x.toFloat else x.toFloat

end FlowScript.Decimal
