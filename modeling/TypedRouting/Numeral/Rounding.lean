/-!
# Rounding to a binary format

A binary format holds the numbers of at most `significand` binary digits times a power of two,
from a least power on. `Precision.magnitude` rounds the quotient of two natural numbers to the
nearest of them, a tie to the one with an even last digit, and returns the bits of the result. The
bits of neighbouring values are neighbouring numbers, across the borders of subnormal values and of
powers of two too, so a carry needs no case of its own.
-/

namespace TypedRouting
namespace Numeral

inductive Precision
  | single
  | double
  deriving DecidableEq, Repr

namespace Precision

/-- The binary digits of a normal value, the leading one included. -/
def significand : Precision → Nat
  | .single => 24
  | .double => 53

/-- The bits of the exponent. -/
def exponentBits : Precision → Nat
  | .single => 8
  | .double => 11

/-- The bits of a value: sign, exponent, and all digits but the leading one. -/
def width (p : Precision) : Nat := p.significand + p.exponentBits

/-- The exponent of two of the least positive value. -/
def leastExponent (p : Precision) : Int :=
  3 - Nat.pow 2 (p.exponentBits - 1) - p.significand

/-- The bits of infinity: the greatest exponent and no further digit. -/
def infinity (p : Precision) : Nat :=
  (Nat.pow 2 p.exponentBits - 1) * Nat.pow 2 (p.significand - 1)

end Precision

/-- The quotient to the nearest whole number, a tie to the even one. -/
def roundHalfEven (num den : Nat) : Nat :=
  let whole := num / den
  let twice := 2 * (num % den)
  if twice < den ∨ (twice = den ∧ whole % 2 = 0) then whole else whole + 1

/-- The greatest `k` with `2 ^ k ≤ num / den`, for positive numbers. -/
def floorLog2 (num den : Nat) : Int :=
  let k : Int := (num.log2 : Int) - den.log2
  if den * Nat.pow 2 k.toNat ≤ num * Nat.pow 2 (-k).toNat then k else k - 1

/-- The bits of the representable value nearest to `num / den`, for positive numbers. -/
def Precision.magnitude (p : Precision) (num den : Nat) : Nat :=
  let quantum := max p.leastExponent (floorLog2 num den - (p.significand - 1))
  let multiple :=
    roundHalfEven (num * Nat.pow 2 (-quantum).toNat) (den * Nat.pow 2 quantum.toNat)
  min p.infinity ((quantum - p.leastExponent).toNat * Nat.pow 2 (p.significand - 1) + multiple)

/-- A power of ten beyond the range of every format, in both directions. -/
def decimalReach : Int := 400

/-- The bits of the representable value nearest to `coefficient * 10 ^ exponent`. -/
def Precision.magnitudeOfDecimal (p : Precision) (coefficient : Nat) (exponent : Int) : Nat :=
  let places := exponent + (Nat.toDigits 10 coefficient).length
  if coefficient = 0 ∨ places < -decimalReach then 0
  else if decimalReach < places then p.infinity
  else p.magnitude (coefficient * Nat.pow 10 exponent.toNat) (Nat.pow 10 (-exponent).toNat)

end Numeral
end TypedRouting
