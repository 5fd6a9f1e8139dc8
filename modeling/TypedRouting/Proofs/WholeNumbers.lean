import TypedRouting.Numeral.Bounded
import TypedRouting.Numeral.Mantissa

/-!
# Reading whole numbers

A bounded number is read digit by digit, and each digit is checked against the range. The number
read so far only moves away from zero, so the checks come to one check of the whole number.

* `Bounded.readDigits_eq_ok_iff`: digits that follow a number read before them.
* `Bounded.read_eq_ok_iff`: a text with its sign.
-/

namespace TypedRouting
namespace Numeral

/-- The number on the side of zero that the sign before it says. -/
def withSign (negative : Bool) (n : Nat) : Int := if negative then -n else n

theorem withSign_natAbs (n : Int) : withSign (n < 0) n.natAbs = n := by
  unfold withSign
  by_cases hn : n < 0
  · rw [if_pos (decide_eq_true hn), Int.ofNat_natAbs_of_nonpos (Int.le_of_lt hn), Int.neg_neg]
  · rw [if_neg (by simpa using hn), Int.natAbs_of_nonneg (Int.not_lt.1 hn)]

theorem le_ofDigitChars (cs : List Char) (n : Nat) : n ≤ Nat.ofDigitChars 10 cs n := by
  induction cs generalizing n with
  | nil => simp
  | cons c cs ih =>
    rw [Nat.ofDigitChars_cons]
    have hrest := ih (10 * n + (c.toNat - '0'.toNat))
    omega

namespace Bounded

variable {w : Width} {negative : Bool} {cs digits : List Char} {text : String}

theorem extend_withSign (negative : Bool) (n digit : Nat) :
    extend negative (withSign negative n) digit = withSign negative (10 * n + digit) := by
  cases negative with
  | false =>
    simp only [extend, withSign, Bool.false_eq_true, if_false]
    omega
  | true =>
    simp only [extend, withSign, if_true]
    omega

/-- A number out of the range does not come back into it with more digits. -/
theorem value_ne_of_ofInt?_eq_none {n k : Nat} (h : ofInt? w (withSign negative n) = none)
    (hle : n ≤ k) (m : Bounded w) : m.value ≠ withSign negative k := by
  intro hm
  have hlower := m.lower
  have hupper := m.upper
  have hout := ofInt?_eq_none_iff.1 h
  cases negative with
  | false =>
    simp only [withSign, Bool.false_eq_true, if_false] at hm hout
    omega
  | true =>
    simp only [withSign, if_true] at hm hout
    omega

theorem readDigits_eq_ok_iff {n m : Bounded w} {k : Nat} (hn : n.value = withSign negative k) :
    readDigits negative n cs = .ok m ↔
      (∀ c ∈ cs, c.isDigit = true) ∧ m.value = withSign negative (Nat.ofDigitChars 10 cs k) := by
  induction cs generalizing n k with
  | nil =>
    rw [readDigits, Except.ok.injEq, Nat.ofDigitChars_nil, ← hn, eq_comm, Bounded.ext_iff]
    simp
  | cons c cs ih =>
    rw [readDigits, hn, extend_withSign, Nat.ofDigitChars_cons, List.forall_mem_cons]
    by_cases hc : c.isDigit = true
    · rw [if_pos hc]
      cases hnext : ofInt? w (withSign negative (10 * k + (c.toNat - '0'.toNat))) with
      | some next =>
        have hread := ih (ofInt?_eq_some_iff.1 hnext)
        simp [hread, hc]
      | none =>
        have hne := value_ne_of_ofInt?_eq_none hnext (le_ofDigitChars cs _) m
        exact iff_of_false nofun fun hcs => hne hcs.2
    · simp [hc]

theorem read_eq_ok_iff_readDigits {m : Bounded w} (h : signed text.toList = (negative, digits)) :
    read w text = .ok m ↔ digits ≠ [] ∧ readDigits negative (zero w) digits = .ok m := by
  unfold read
  unfold signed at h
  split at h
  · next hminus =>
    cases h
    rw [hminus]
    cases digits <;> simp
  · next hplus =>
    cases h
    rw [hplus]
    cases digits <;> simp
  · next hminus hplus =>
    cases h
    split <;> grind

/-- A text is a whole number of the width just where at least one digit and nothing else follows
the sign, and the number that it denotes is in the range. -/
theorem read_eq_ok_iff {m : Bounded w} (h : signed text.toList = (negative, digits)) :
    read w text = .ok m ↔
      digits ≠ [] ∧ (∀ c ∈ digits, c.isDigit = true) ∧
        m.value = withSign negative (Nat.ofDigitChars 10 digits 0) := by
  have hzero : (zero w).value = withSign negative 0 := by cases negative <;> rfl
  rw [read_eq_ok_iff_readDigits h, readDigits_eq_ok_iff hzero]

end Bounded
end Numeral
end TypedRouting
