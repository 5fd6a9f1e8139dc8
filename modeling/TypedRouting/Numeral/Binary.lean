import TypedRouting.Numeral.Mantissa
import TypedRouting.Numeral.Rounding
import TypedRouting.Text.Ascii

/-!
# Binary floating-point numbers

`Binary p` is a number of precision `p`, held as its bits. Its text is read in two steps:
`FloatText.read` decides what the text denotes, and does not depend on the precision;
`FloatText.round` takes that to the nearest number of the precision.
-/

namespace TypedRouting
namespace Numeral

/-- A floating-point number, as its bits. -/
structure Binary (p : Precision) where
  bits : BitVec p.width
  deriving DecidableEq

/-- What a text denotes before it is rounded. -/
inductive FloatText
  | notANumber
  | infinite (negative : Bool)
  | finite (negative : Bool) (coefficient : Nat) (exponent : Int)
  deriving DecidableEq, Repr

namespace FloatText

inductive Fault
  | empty
  | invalid
  deriving DecidableEq, Repr

def Fault.message : Fault → String
  | .empty => "cannot parse float from empty string"
  | .invalid => "invalid float literal"

/-- The size from which an exponent takes up no further digit. It is far beyond the range of
every format. -/
def exponentCap : Nat := 65536

/-- The value of exponent digits, up to the cap. -/
def cappedValue (digits : List Char) : Nat :=
  digits.foldl (fun n c => if n < exponentCap then 10 * n + (c.toNat - '0'.toNat) else n) 0

/-- Reads what follows a mantissa: nothing, or `e` and a signed whole number. -/
def exponent? : List Char → Option Int
  | [] => some 0
  | c :: cs =>
    let (negative, digits) := signed cs
    if (c = 'e' ∨ c = 'E') ∧ digits ≠ [] ∧ digits.all Char.isDigit then
      some (if negative then -(cappedValue digits) else cappedValue digits)
    else none

/-- Reads a mantissa of at least one digit and an optional exponent. -/
def number? (negative : Bool) (cs : List Char) : Option FloatText :=
  let (mantissa, rest) := Mantissa.scan cs
  if mantissa.digits = [] then none
  else (exponent? rest).map fun exponent =>
    .finite negative mantissa.coefficient (exponent - mantissa.fraction.length)

/-- Reads one of the words for infinity and for what is not a number, in any case. -/
def word? (negative : Bool) (cs : List Char) : Option FloatText :=
  let word := String.ofList cs
  if Text.spells word "nan" then some .notANumber
  else if Text.spells word "inf" || Text.spells word "infinity" then some (.infinite negative)
  else none

/-- Reads a text: an optional sign, then a number or a word. -/
def read (text : String) : Except Fault FloatText :=
  match text.toList with
  | [] => .error .empty
  | cs =>
    let (negative, rest) := signed cs
    match (number? negative rest).or (word? negative rest) with
    | some number => .ok number
    | none => .error .invalid

end FloatText

namespace Binary

variable {p : Precision}

/-- The number of a sign and the bits of its magnitude. -/
def ofMagnitude (p : Precision) (negative : Bool) (magnitude : Nat) : Binary p :=
  ⟨.ofNat p.width (magnitude + if negative then Nat.pow 2 (p.width - 1) else 0)⟩

/-- One of the bit patterns that are not a number. -/
def notANumber (p : Precision) : Binary p := ofMagnitude p false (p.infinity + 1)

/-- The bits are those of something that is not a number. -/
def isNotANumber (x : Binary p) : Bool := p.infinity < x.bits.toNat % Nat.pow 2 (p.width - 1)

end Binary

def FloatText.round (p : Precision) : FloatText → Binary p
  | .notANumber => Binary.notANumber p
  | .infinite negative => Binary.ofMagnitude p negative p.infinity
  | .finite negative coefficient exponent =>
    Binary.ofMagnitude p negative (p.magnitudeOfDecimal coefficient exponent)

def Binary.read (p : Precision) (text : String) : Except FloatText.Fault (Binary p) :=
  (FloatText.read text).map (FloatText.round p)

end Numeral
end TypedRouting
