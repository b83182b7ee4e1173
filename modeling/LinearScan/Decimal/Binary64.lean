/-!
# Double precision numbers

Numbers of the 64-bit binary format, read from decimal text by exact arithmetic.

## Main Definitions

* `Magnitude` — a finite number without its sign, as significand and power of two
* `Double` — a number of the format
* `Magnitude.ofDecimal?` — the nearest magnitude to a decimal

## Design Notes

A decimal is an integer quotient, so rounding it needs no approximation: the quotient is
taken at the one power of two that leaves 53 bits, and a half goes to the even neighbour.
-/

namespace LinearScan

/-- A finite number `significand * 2 ^ exponent`, where the significand has at most 53
bits, and fewer only with the smallest exponent. -/
structure Magnitude where
  significand : Nat
  exponent : Int
deriving DecidableEq

/-- A number of the 64-bit format. -/
inductive Double where
  | finite (negative : Bool) (magnitude : Magnitude)
  | infinite (negative : Bool)
  | nan
deriving DecidableEq

/-- The number of decimal digits of a number; zero has one. -/
def decimalLength (n : Nat) : Nat :=
  (Nat.toDigits 10 n).length

/-- A power with an exponent of either sign, as numerator and denominator. -/
def signedPower (base : Nat) (exponent : Int) : Nat × Nat :=
  match exponent with
  | .ofNat n => (base.pow n, 1)
  | .negSucc n => (1, base.pow (n + 1))

/-- A quotient rounded to the nearest integer, where a half goes to the even one. -/
def roundQuotient (num den : Nat) : Nat :=
  let quotient := num / den
  let twice := 2 * (num % den)
  if den < twice ∨ (twice = den ∧ quotient % 2 = 1) then quotient + 1 else quotient

namespace Magnitude

/-- The smallest exponent of the format. -/
def minExponent : Int := -1074

/-- The largest exponent of the format. -/
def maxExponent : Int := 971

/-- What a significand of 53 bits stays below. -/
def significandLimit : Nat := 9007199254740992

/-- Zero. -/
def zero : Magnitude :=
  ⟨0, minExponent⟩

/-- The quotient of a fraction and a power of two, as numerator and denominator. -/
def scaled (num den : Nat) (exponent : Int) : Nat × Nat :=
  let (up, down) := signedPower 2 exponent
  (num * down, den * up)

/-- The exponent at which a positive fraction leaves 53 bits before the point, or the
smallest one. -/
def exponentOf (num den : Nat) : Int :=
  let free : Int := num.log2 - den.log2 - 53
  let guess := if free < minExponent then minExponent else free
  let (num, den) := scaled num den guess
  if significandLimit ≤ num / den then guess + 1 else guess

/-- The nearest magnitude to a positive fraction; none if that is beyond the largest. -/
def ofFraction? (num den : Nat) : Option Magnitude :=
  let exponent := exponentOf num den
  let (num, den) := scaled num den exponent
  let significand := roundQuotient num den
  let result : Magnitude :=
    if significand = significandLimit then ⟨significandLimit / 2, exponent + 1⟩
    else ⟨significand, exponent⟩
  if maxExponent < result.exponent then none else some result

/-- The nearest magnitude to a decimal `digits * 10 ^ exponent`; none if that is beyond
the largest.  Decimals far outside the format are told by their number of digits. -/
def ofDecimal? (digits : Nat) (exponent : Int) : Option Magnitude :=
  let point := decimalLength digits + exponent
  if digits = 0 ∨ point < -400 then some zero
  else if 400 < point then none
  else
    let (up, down) := signedPower 10 exponent
    ofFraction? (digits * up) down

end Magnitude

end LinearScan
