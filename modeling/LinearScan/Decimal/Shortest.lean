import LinearScan.Decimal.Binary64

/-!
# Shortest decimals

A double is written with the fewest decimal digits that are read back as the same double.

## Main Definitions

* `Decimal` — digits and a power of ten
* `Magnitude.shortest` — the shortest decimal that stands for a magnitude
* `Double.text` — a double in positional notation

## Design Notes

The reals that round to a double form an interval around it, closed if its significand is
even.  For each number of digits there is a grid of decimals; if a grid has a point in the
interval, then one of the double's two neighbours on the grid lies there.  Of two such
neighbours the nearer one is taken, and the upper one if they are equally near.
-/

namespace LinearScan

/-- The number `digits * 10 ^ exponent`. -/
structure Decimal where
  digits : Nat
  exponent : Int
deriving DecidableEq

/-- The reals that round to a magnitude, in units of `1 / unit`. -/
structure RoundingInterval where
  lower : Nat
  value : Nat
  upper : Nat
  unit : Nat
  /-- Whether the ends belong to the interval. -/
  closed : Bool

namespace RoundingInterval

/-- The interval of a magnitude.  Below a power of two the neighbour is only half as far. -/
def ofMagnitude (magnitude : Magnitude) : RoundingInterval :=
  let m := magnitude.significand
  let (up, down) := signedPower 2 (magnitude.exponent - 2)
  let narrow := 2 * m = Magnitude.significandLimit ∧ magnitude.exponent ≠ Magnitude.minExponent
  let gap := if narrow then 1 else 2
  { lower := (4 * m - gap) * up
    value := 4 * m * up
    upper := (4 * m + 2) * up
    unit := down
    closed := m % 2 = 0 }

/-- Whether a decimal lies in the interval. -/
def contains (interval : RoundingInterval) (decimal : Decimal) : Bool :=
  let (up, down) := signedPower 10 decimal.exponent
  let point := decimal.digits * up * interval.unit
  if interval.closed then interval.lower * down ≤ point && point ≤ interval.upper * down
  else interval.lower * down < point && point < interval.upper * down

/-- The power of ten of the value's first digit. -/
def leadingPower (interval : RoundingInterval) : Int :=
  if interval.unit ≤ interval.value then
    decimalLength (interval.value / interval.unit) - 1
  else
    -decimalLength ((interval.unit - 1) / interval.value)

/-- The decimal of at most the given number of digits that stands for the value, if one
does. -/
def nearest? (interval : RoundingInterval) (count : Nat) : Option Decimal :=
  let exponent := interval.leadingPower - count + 1
  let (up, down) := signedPower 10 exponent
  let below := interval.value * down / (interval.unit * up)
  let lower : Decimal := ⟨below, exponent⟩
  let upper : Decimal := ⟨below + 1, exponent⟩
  match interval.contains lower, interval.contains upper with
  | true, true =>
    if (2 * below + 1) * up * interval.unit ≤ 2 * interval.value * down then some upper
    else some lower
  | true, false => some lower
  | false, true => some upper
  | false, false => none

end RoundingInterval

/-- The shortest decimal that stands for a positive magnitude.  Seventeen digits always
suffice. -/
def Magnitude.shortest (magnitude : Magnitude) : Decimal :=
  let interval := RoundingInterval.ofMagnitude magnitude
  ((List.range 17).findSome? fun count => interval.nearest? (count + 1)).getD ⟨0, 0⟩

/-- A decimal in positional notation, with at least one digit on each side of the point
and no idle zero at its end. -/
def Decimal.text (decimal : Decimal) : String :=
  let all := Nat.toDigits 10 decimal.digits
  let idle := (all.reverse.takeWhile (· == '0')).length
  let digits := all.take (all.length - idle)
  let zeros (count : Nat) : List Char := List.replicate count '0'
  String.ofList <|
    match decimal.exponent + idle with
    | .ofNat n => digits ++ zeros n ++ ['.', '0']
    | .negSucc n =>
      let places := n + 1
      if places < digits.length then
        digits.take (digits.length - places) ++ '.' :: digits.drop (digits.length - places)
      else
        '0' :: '.' :: zeros (places - digits.length) ++ digits

/-- A double in positional notation. -/
def Double.text : Double → String
  | finite negative magnitude =>
    let digits := if magnitude.significand = 0 then "0.0" else magnitude.shortest.text
    if negative then "-" ++ digits else digits
  | infinite negative => if negative then "-inf" else "inf"
  | nan => "NaN"

end LinearScan
