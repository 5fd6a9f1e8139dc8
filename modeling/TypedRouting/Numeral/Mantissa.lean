/-!
# Signs and digits with a decimal point

The part that decimal and binary numbers have in common: an optional sign, then digits with at
most one point among them. `signed` and `Mantissa.scan` take as much as there is and leave the
rest of the text to the reader.
-/

namespace TypedRouting
namespace Numeral

/-- Takes off an optional sign; the flag is set for `-`. -/
def signed : List Char → Bool × List Char
  | '-' :: cs => (true, cs)
  | '+' :: cs => (false, cs)
  | cs => (false, cs)

/-- Digits before and after the point, as they are written. -/
structure Mantissa where
  whole : List Char
  fraction : List Char
  deriving DecidableEq, Repr

namespace Mantissa

/-- The longest mantissa at the start of a text, and what follows it. -/
def scan (cs : List Char) : Mantissa × List Char :=
  let whole := cs.takeWhile Char.isDigit
  match cs.dropWhile Char.isDigit with
  | '.' :: rest => (⟨whole, rest.takeWhile Char.isDigit⟩, rest.dropWhile Char.isDigit)
  | rest => (⟨whole, []⟩, rest)

def digits (m : Mantissa) : List Char := m.whole ++ m.fraction

/-- The number that the digits denote without the point. -/
def coefficient (m : Mantissa) : Nat := Nat.ofDigitChars 10 m.digits 0

end Mantissa

end Numeral
end TypedRouting
