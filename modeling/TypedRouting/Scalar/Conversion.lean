import TypedRouting.Scalar.Basic

/-!
# From texts to scalar values

`ScalarType.convert` is the one way from the text of a segment to a value; scores and arguments
both go through it. Booleans and strings accept every text.
-/

namespace TypedRouting

open Numeral

/-- Why a text is not of a type. -/
inductive ConversionFault
  | whole (fault : Bounded.Fault)
  | binary (fault : FloatText.Fault)
  | decimal (fault : Decimal.Fault)
  | noCharacter
  | manyCharacters
  deriving DecidableEq, Repr

def ConversionFault.message : ConversionFault → String
  | .whole fault => fault.message
  | .binary fault => fault.message
  | .decimal fault => fault.message
  | .noCharacter => "expected one character, found none"
  | .manyCharacters => "expected exactly one character"

/-- A text that is not of the type asked for. -/
structure ConversionError where
  type : ScalarType
  text : String
  fault : ConversionFault
  deriving DecidableEq, Repr

def ConversionError.message (e : ConversionError) : String :=
  "cannot convert '" ++ e.text ++ "' to " ++ e.type.name ++ ": " ++ e.fault.message

/-- The only character of a text. -/
def readCharacter (text : String) : Except ConversionFault Char :=
  match text.toList with
  | [] => .error .noCharacter
  | [c] => .ok c
  | _ => .error .manyCharacters

namespace ScalarType

/-- Reads a text as a value of the type. -/
def read : (t : ScalarType) → String → Except ConversionFault t.Carrier
  | .whole w, text => (Bounded.read w text).mapError .whole
  | .binary p, text => (Binary.read p text).mapError .binary
  | .decimal, text => (Decimal.read text).mapError .decimal
  | .boolean, text => .ok (Text.spells text "true")
  | .character, text => readCharacter text
  | .string, text => .ok text

/-- Converts a text to a value of the type, or says which text failed and why. -/
def convert (t : ScalarType) (text : String) : Except ConversionError t.Carrier :=
  (t.read text).mapError (⟨t, text, ·⟩)

/-- The text converts to the type. -/
def accepts (t : ScalarType) (text : String) : Bool :=
  (t.convert text).isOk

end ScalarType
end TypedRouting
