import TypedRouting.Numeral.Decimal

/-!
# Scalar types

The types that a placeholder may ask for. The list is closed: each type has a name, the tokens
by which a declaration may spell it, a set of traits, and a carrier of values.
-/

namespace TypedRouting

open Numeral

/-- The types of single path segments. -/
inductive ScalarType
  | whole (width : Width)
  | binary (precision : Precision)
  | decimal
  | boolean
  | character
  | string
  deriving DecidableEq, Repr

/-- What holds of all values of a type. -/
inductive Trait
  | numeric
  | signed
  | fractional
  | textual
  deriving DecidableEq, Repr

namespace ScalarType

/-- All scalar types, in their usual order. -/
def all : List ScalarType :=
  [.whole .integer, .whole .long, .whole .short, .whole .byte, .binary .single, .binary .double,
    .decimal, .boolean, .character, .string]

theorem mem_all (t : ScalarType) : t ∈ all := by
  cases t with
  | whole w => cases w <;> decide
  | binary p => cases p <;> decide
  | _ => decide

def name : ScalarType → String
  | .whole .integer => "Integer"
  | .whole .long => "Long"
  | .whole .short => "Short"
  | .whole .byte => "Byte"
  | .binary .single => "Float"
  | .binary .double => "Double"
  | .decimal => "Decimal"
  | .boolean => "Boolean"
  | .character => "Character"
  | .string => "String"

/-- A second spelling of a type, if it has one. -/
def alias? : ScalarType → Option String
  | .whole .integer => some "i32"
  | .whole .long => some "i64"
  | .whole .short => some "i16"
  | .whole .byte => some "i8"
  | .binary .single => some "f32"
  | .binary .double => some "f64"
  | .decimal => some "BigDecimal"
  | .boolean => some "bool"
  | .character => some "char"
  | .string => none

def ofName? (text : String) : Option ScalarType :=
  all.find? (·.name == text)

/-- The type that a declaration spells as `token`. -/
def ofToken? (token : String) : Option ScalarType :=
  all.find? fun t => t.name == token || t.alias? == some token

/-- A token spells a type by its name or by its second spelling, and no token spells two types. -/
theorem ofToken?_eq_some_iff {token : String} {t : ScalarType} :
    ofToken? token = some t ↔ token = t.name ∨ t.alias? = some token := by
  constructor
  · intro h
    have hspelt := List.find?_some h
    rw [Bool.or_eq_true, beq_iff_eq, beq_iff_eq] at hspelt
    exact hspelt.imp_left Eq.symm
  · intro h
    cases t with
    | whole w => cases w <;> rcases h with rfl | ⟨⟨⟩⟩ <;> rfl
    | binary p => cases p <;> rcases h with rfl | ⟨⟨⟩⟩ <;> rfl
    | _ => rcases h with rfl | ⟨⟨⟩⟩ <;> rfl

def traits : ScalarType → List Trait
  | .whole _ => [.numeric, .signed]
  | .binary _ | .decimal => [.numeric, .signed, .fractional]
  | .boolean => []
  | .character | .string => [.textual]

/-- Values of the type may have a fraction. -/
def isFractional (t : ScalarType) : Bool := t.traits.contains .fractional

theorem isFractional_iff {t : ScalarType} :
    t.isFractional = true ↔ (∃ p, t = .binary p) ∨ t = .decimal := by
  cases t <;> simp [isFractional, traits]

abbrev Carrier : ScalarType → Type
  | .whole w => Bounded w
  | .binary p => Binary p
  | .decimal => Decimal
  | .boolean => Bool
  | .character => Char
  | .string => String

end ScalarType
end TypedRouting
