/-!
# Whole numbers of a bounded width

`Bounded w` holds the whole numbers of a two's complement word of width `w`. `Bounded.read`
reads one from a sign and decimal digits, left to right: the first character that is no digit
and the first digit that leaves the range end the reading, whichever comes first.
-/

namespace TypedRouting
namespace Numeral

inductive Width
  | byte
  | short
  | integer
  | long
  deriving DecidableEq, Repr

def Width.bits : Width → Nat
  | .byte => 8
  | .short => 16
  | .integer => 32
  | .long => 64

/-- The least number beyond the width. -/
def Width.limit (w : Width) : Nat := Nat.pow 2 (w.bits - 1)

theorem Width.limit_pos (w : Width) : 0 < w.limit := Nat.two_pow_pos _

/-- The whole numbers from `-w.limit` up to `w.limit - 1`. -/
@[ext]
structure Bounded (w : Width) where
  value : Int
  lower : -(w.limit : Int) ≤ value
  upper : value < w.limit
  deriving DecidableEq, Repr

namespace Bounded

variable {w : Width}

/-- The number, where it lies in the range. -/
def ofInt? (w : Width) (n : Int) : Option (Bounded w) :=
  if h : -(w.limit : Int) ≤ n ∧ n < w.limit then some ⟨n, h.1, h.2⟩ else none

/-- Zero lies in every range. -/
def zero (w : Width) : Bounded w :=
  ⟨0, by have := w.limit_pos; omega, by have := w.limit_pos; omega⟩

theorem ofInt?_value (n : Bounded w) : ofInt? w n.value = some n := by
  simp [ofInt?, n.lower, n.upper]

theorem ofInt?_eq_some_iff {n : Int} {m : Bounded w} : ofInt? w n = some m ↔ m.value = n := by
  constructor
  · intro h
    unfold ofInt? at h
    split at h
    · cases h; rfl
    · cases h
  · rintro rfl
    exact ofInt?_value m

theorem ofInt?_eq_none_iff {n : Int} :
    ofInt? w n = none ↔ n < -(w.limit : Int) ∨ (w.limit : Int) ≤ n := by
  unfold ofInt?
  split <;> simp <;> omega

/-! ### Reading -/

/-- Why a text is not a whole number of the width. -/
inductive Fault
  | empty
  | invalidDigit
  | tooLarge
  | tooSmall
  deriving DecidableEq, Repr

def Fault.message : Fault → String
  | .empty => "cannot parse integer from empty string"
  | .invalidDigit => "invalid digit found in string"
  | .tooLarge => "number too large to fit in target type"
  | .tooSmall => "number too small to fit in target type"

/-- One more decimal digit, away from zero on the side of the sign. -/
def extend (negative : Bool) (n : Int) (digit : Nat) : Int :=
  if negative then n * 10 - digit else n * 10 + digit

/-- Reads the digits that follow those of `n`. -/
def readDigits (negative : Bool) (n : Bounded w) : List Char → Except Fault (Bounded w)
  | [] => .ok n
  | c :: cs =>
    if c.isDigit then
      match ofInt? w (extend negative n.value (c.toNat - '0'.toNat)) with
      | some next => readDigits negative next cs
      | none => .error (if negative then .tooSmall else .tooLarge)
    else .error .invalidDigit

/-- Reads an optional sign and at least one digit. -/
def read (w : Width) (text : String) : Except Fault (Bounded w) :=
  match text.toList with
  | [] => .error .empty
  | ['+'] => .error .invalidDigit
  | ['-'] => .error .invalidDigit
  | '+' :: digits => readDigits false (zero w) digits
  | '-' :: digits => readDigits true (zero w) digits
  | digits => readDigits false (zero w) digits

/-- The number in decimal digits, after `-` where it is negative. -/
def text (n : Bounded w) : String := toString n.value

end Bounded

end Numeral
end TypedRouting
