import TypedRouting.Numeral.Binary
import TypedRouting.Numeral.Bounded

/-!
# Decimal numbers

A `Decimal` is `unscaled * 10 ^ -scale`, with as many digits as it takes. Numbers that differ
only in their scale (`2.0` and `2.00`) are different. `Decimal.read` keeps every digit of the
text, `Decimal.text` writes the number back in plain or in scientific form, and
`Decimal.toDouble` is the nearest double.
-/

namespace TypedRouting
namespace Numeral

/-- The number `unscaled * 10 ^ -scale`. -/
@[ext]
structure Decimal where
  unscaled : Int
  scale : Bounded .long
  deriving DecidableEq, Repr

namespace Decimal

/-- Why a text is not a decimal number. -/
inductive Fault
  | noDigit
  | badExponent
  | unexpectedCharacter
  | exponentOutOfRange
  deriving DecidableEq, Repr

def Fault.message : Fault → String
  | .noDigit => "expected at least one digit"
  | .badExponent => "invalid exponent"
  | .unexpectedCharacter => "unexpected character"
  | .exponentOutOfRange => "exponent out of range"

/-! ### Reading -/

/-- Reads what follows a mantissa: nothing, or `e` and a whole number. -/
def readExponent : List Char → Except Fault Int
  | [] => .ok 0
  | c :: cs =>
    if c = 'e' ∨ c = 'E' then
      match Bounded.read .long (String.ofList cs) with
      | .ok exponent => .ok exponent.value
      | .error _ => .error .badExponent
    else .error .unexpectedCharacter

/-- Reads an optional sign, digits with at most one point among them, and an optional
exponent. -/
def read (text : String) : Except Fault Decimal :=
  let (negative, cs) := signed text.toList
  let (mantissa, rest) := Mantissa.scan cs
  if mantissa.digits = [] then .error .noDigit
  else
    match readExponent rest with
    | .error fault => .error fault
    | .ok exponent =>
      match Bounded.ofInt? .long (mantissa.fraction.length - exponent) with
      | some scale =>
        .ok ⟨if negative then -mantissa.coefficient else mantissa.coefficient, scale⟩
      | none => .error .exponentOutOfRange

/-! ### Writing -/

/-- The decimal digits of the number without its sign and scale; `0` for zero. -/
def digits (d : Decimal) : List Char := Nat.toDigits 10 d.unscaled.natAbs

def isNegative (d : Decimal) : Bool := d.unscaled < 0

/-- The number is zero, of whatever scale. -/
def isZero (d : Decimal) : Bool := d.unscaled == 0

/-- The power of ten of the first digit. -/
def adjustedExponent (d : Decimal) : Int := d.digits.length - 1 - d.scale.value

/-- The number is written without an exponent: no digit is left of the last one written, and at
most five zeros follow the point. -/
def isPlain (d : Decimal) : Bool := 0 ≤ d.scale.value && -6 ≤ d.adjustedExponent

/-- The digits with a point before the last `scale` of them. -/
def plainDigits (digits : List Char) (scale : Nat) : List Char :=
  if scale = 0 then digits
  else if scale < digits.length then
    digits.take (digits.length - scale) ++ '.' :: digits.drop (digits.length - scale)
  else '0' :: '.' :: List.replicate (scale - digits.length) '0' ++ digits

/-- A point after the first digit, where there are others. -/
def pointed : List Char → List Char
  | [] => []
  | [d] => [d]
  | d :: ds => d :: '.' :: ds

/-- The exponent after `E`, always with a sign. -/
def exponentText (exponent : Int) : List Char :=
  (if exponent < 0 then ['E', '-'] else ['E', '+']) ++ Nat.toDigits 10 exponent.natAbs

def unsignedText (d : Decimal) : List Char :=
  if d.isPlain then plainDigits d.digits d.scale.value.toNat
  else pointed d.digits ++ exponentText d.adjustedExponent

def text (d : Decimal) : String :=
  String.ofList ((if d.isNegative then ['-'] else []) ++ d.unsignedText)

/-! ### The nearest double -/

/-- The digits and the scale as a float literal. -/
def literal (d : Decimal) : String :=
  toString d.unscaled ++ "e" ++ toString (-d.scale.value)

def toDouble (d : Decimal) : Binary .double :=
  match Binary.read .double d.literal with
  | .ok x => x
  | .error _ => Binary.notANumber .double

end Decimal

end Numeral
end TypedRouting
