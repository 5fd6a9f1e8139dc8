import Mathlib.Algebra.Field.Rat
import Mathlib.Tactic.FieldSimp
import Mathlib.Tactic.Ring
import TypedRouting.Proofs.WholeTexts

/-!
# The grammar of decimal numbers

`Decimal.Parts.IsText` says how the text of a decimal is put together: digits with at most one point
among them, maybe a sign before and an exponent after them. `Decimal.Parts.number` is the rational
number that such parts denote, place by place.

* `Decimal.Parts.IsText.unique`: a text has its parts in one way only.
* `Decimal.Parts.number_eq`: the number that the parts denote, from the digits without their point.
* `Decimal.exists_isText_of_read`, `Decimal.read_eq_ok_iff_of_isText`: only such texts are read, and
  what is read from one.
* `Decimal.read_grammar`: which texts are read, and that nothing of the number is lost.
-/

namespace TypedRouting
namespace Numeral

/-- The number is in the range of the width. -/
def Width.Has (w : Width) (n : Int) : Prop := -(w.limit : Int) ≤ n ∧ n < w.limit

/-! ### Signs -/

/-- A sign or none; the flag is set for `-`. -/
inductive IsSign : List Char → Bool → Prop
  | none : IsSign [] false
  | plus : IsSign ['+'] false
  | minus : IsSign ['-'] true

variable {sign digits cs rest : List Char} {negative : Bool}

theorem exists_isSign_of_signed (h : signed cs = (negative, rest)) :
    ∃ sign, IsSign sign negative ∧ cs = sign ++ rest := by
  unfold signed at h
  split at h
  · cases h
    exact ⟨_, .minus, rfl⟩
  · cases h
    exact ⟨_, .plus, rfl⟩
  · cases h
    exact ⟨_, .none, rfl⟩

theorem IsSign.signed_append (h : IsSign sign negative) (hrest : signed rest = (false, rest)) :
    signed (sign ++ rest) = (negative, rest) := by
  cases h with
  | none => exact hrest
  | plus => rfl
  | minus => rfl

theorem signed_of_isDigit (hdigits : ∀ c ∈ digits, c.isDigit = true) (hne : digits ≠ []) :
    signed (digits ++ rest) = (false, digits ++ rest) := by
  refine Mantissa.signed_of_whole_ne_nil ?_
  rw [Mantissa.whole_scan, List.takeWhile_append_of_pos hdigits]
  exact List.append_ne_nil_of_left_ne_nil hne _

theorem cast_withSign (negative : Bool) (n : Nat) :
    (withSign negative n : ℚ) = (-1) ^ negative.toNat * n := by
  cases negative <;> simp [withSign]

/-! ### Mantissas -/

namespace Mantissa

/-- Digits with at most one point among them, and at least one digit. -/
inductive IsText : Mantissa → List Char → Prop
  | bare {whole} (hwhole : ∀ c ∈ whole, c.isDigit = true) (hne : whole ≠ []) :
      IsText ⟨whole, []⟩ whole
  | pointed {whole fraction} (hwhole : ∀ c ∈ whole, c.isDigit = true)
      (hfraction : ∀ c ∈ fraction, c.isDigit = true) (hne : whole ++ fraction ≠ []) :
      IsText ⟨whole, fraction⟩ (whole ++ '.' :: fraction)

/-- The number that the digits denote, those after the point as a decimal fraction. -/
def number (m : Mantissa) : ℚ :=
  Nat.ofDigitChars 10 m.whole 0 + Nat.ofDigitChars 10 m.fraction 0 / 10 ^ m.fraction.length

variable {m : Mantissa}

theorem coefficient_eq (m : Mantissa) : (m.coefficient : ℚ) = m.number * 10 ^ m.fraction.length := by
  have hdigits : m.coefficient = 10 ^ m.fraction.length * Nat.ofDigitChars 10 m.whole 0 +
      Nat.ofDigitChars 10 m.fraction 0 := by
    rw [coefficient, digits, Nat.ofDigitChars_append, Nat.ofDigitChars_eq_ofDigitChars_zero]
  rw [hdigits, number]
  push_cast
  field_simp

theorem exists_isText_of_scan (h : scan cs = (m, rest)) (hne : m.digits ≠ []) :
    ∃ written, m.IsText written ∧ cs = written ++ rest := by
  obtain ⟨hcs, hwhole, -⟩ := Run.span_iff.1
    (⟨rfl, rfl⟩ : cs.takeWhile Char.isDigit = _ ∧ cs.dropWhile Char.isDigit = _)
  unfold scan at h
  split at h
  · next tail htail =>
    obtain ⟨hspan, hfraction, -⟩ := Run.span_iff.1
      (⟨rfl, rfl⟩ : tail.takeWhile Char.isDigit = _ ∧ tail.dropWhile Char.isDigit = _)
    obtain ⟨rfl, rfl⟩ := Prod.mk.inj h
    refine ⟨_, .pointed hwhole hfraction hne, ?_⟩
    rw [List.append_assoc, List.cons_append, ← hspan, ← htail]
    exact hcs
  · obtain ⟨rfl, rfl⟩ := Prod.mk.inj h
    exact ⟨_, .bare hwhole (by simpa [digits] using hne), hcs⟩

namespace IsText

variable {written : List Char} (h : m.IsText written)
include h

theorem digits_ne_nil : m.digits ≠ [] := by
  cases h with
  | bare hwhole hne => simpa [digits] using hne
  | pointed hwhole hfraction hne => exact hne

/-- What follows a mantissa is not taken for a part of it. -/
theorem scan_append (hrest : Run.Stops Char.isDigit rest) (hpoint : ∀ cs, rest ≠ '.' :: cs) :
    scan (written ++ rest) = (m, rest) := by
  cases h with
  | bare hwhole hne => exact scan_whole hwhole hrest hpoint
  | pointed hwhole hfraction hne =>
    rw [List.append_assoc]
    exact scan_pointed hwhole hfraction hrest

theorem signed_append : signed (written ++ rest) = (false, written ++ rest) := by
  cases h with
  | bare hwhole hne => exact signed_of_isDigit hwhole hne
  | @pointed whole fraction hwhole hfraction hne =>
    rw [List.append_assoc]
    by_cases hnil : whole = []
    · -- the point comes first, and that is no sign either
      rw [hnil]
      rfl
    · exact signed_of_isDigit hwhole hnil

end IsText
end Mantissa

/-! ### Exponents -/

/-- Nothing, or `e` in either case and a whole number. -/
inductive IsExponent : List Char → Int → Prop
  | none : IsExponent [] 0
  | some {marker sign digits negative} (hmarker : marker = 'e' ∨ marker = 'E')
      (hsign : IsSign sign negative) (hdigits : ∀ c ∈ digits, c.isDigit = true)
      (hne : digits ≠ []) :
      IsExponent (marker :: (sign ++ digits)) (withSign negative (Nat.ofDigitChars 10 digits 0))

theorem IsSign.denotes (hsign : IsSign sign negative) (hdigits : ∀ c ∈ digits, c.isDigit = true)
    (hne : digits ≠ []) :
    Denotes (String.ofList (sign ++ digits)) (withSign negative (Nat.ofDigitChars 10 digits 0)) := by
  have hfirst : signed (digits ++ []) = (false, digits ++ []) := signed_of_isDigit hdigits hne
  rw [List.append_nil] at hfirst
  refine ⟨negative, digits, ?_, hne, hdigits, rfl⟩
  rw [String.toList_ofList]
  exact hsign.signed_append hfirst

theorem isExponent_cons_iff {c : Char} {n : Int} :
    IsExponent (c :: cs) n ↔ (c = 'e' ∨ c = 'E') ∧ Denotes (String.ofList cs) n := by
  constructor
  · rintro (_ | ⟨hmarker, hsign, hdigits, hne⟩)
    exact ⟨hmarker, hsign.denotes hdigits hne⟩
  · rintro ⟨hmarker, negative, digits, hsigned, hne, hdigits, rfl⟩
    rw [String.toList_ofList] at hsigned
    obtain ⟨sign, hsign, rfl⟩ := exists_isSign_of_signed hsigned
    exact .some hmarker hsign hdigits hne

theorem IsExponent.unique {m n : Int} (hm : IsExponent cs m) (hn : IsExponent cs n) : m = n := by
  cases cs with
  | nil =>
    cases hm
    cases hn
    rfl
  | cons c cs => exact (isExponent_cons_iff.1 hm).2.unique (isExponent_cons_iff.1 hn).2

/-- An exponent starts with a letter, so it does not go on with the digits before it. -/
theorem IsExponent.stops {n : Int} (h : IsExponent cs n) :
    Run.Stops Char.isDigit cs ∧ ∀ rest, cs ≠ '.' :: rest := by
  cases h with
  | none => exact ⟨Run.stops_nil, nofun⟩
  | some hmarker hsign hdigits hne =>
    rw [Run.stops_cons]
    rcases hmarker with rfl | rfl
    · exact ⟨rfl, by simp⟩
    · exact ⟨rfl, by simp⟩

namespace Decimal

theorem readExponent_eq_ok_iff {n : Int} :
    readExponent cs = .ok n ↔ IsExponent cs n ∧ Width.long.Has n := by
  cases cs with
  | nil =>
    constructor
    · rintro ⟨⟩
      exact ⟨.none, by decide, by decide⟩
    · rintro ⟨⟨⟩, -⟩
      rfl
  | cons c cs =>
    rw [isExponent_cons_iff, readExponent]
    by_cases hmarker : c = 'e' ∨ c = 'E'
    · rw [if_pos hmarker]
      constructor
      · intro h
        split at h
        · next exponent hread =>
          cases h
          exact ⟨⟨hmarker, Bounded.read_eq_ok_iff_denotes.1 hread⟩, exponent.lower, exponent.upper⟩
        · cases h
      · rintro ⟨⟨-, hn⟩, hlower, hupper⟩
        have hread : Bounded.read .long (String.ofList cs) = .ok ⟨n, hlower, hupper⟩ :=
          Bounded.read_eq_ok_iff_denotes.2 hn
        rw [hread]
    · simp [hmarker]

/-! ### Texts -/

/-- What the text of a decimal consists of. -/
structure Parts where
  negative : Bool
  mantissa : Mantissa
  exponent : Int

namespace Parts

/-- The text has a sign, a mantissa and an exponent for the parts. -/
def IsText (p : Parts) (text : String) : Prop :=
  ∃ sign mantissa exponent, text.toList = sign ++ (mantissa ++ exponent) ∧
    IsSign sign p.negative ∧ p.mantissa.IsText mantissa ∧ IsExponent exponent p.exponent

/-- The number of digits after the point, less the exponent. -/
def scale (p : Parts) : Int := p.mantissa.fraction.length - p.exponent

/-- The number that the text denotes. -/
def number (p : Parts) : ℚ := (-1) ^ p.negative.toNat * p.mantissa.number * 10 ^ p.exponent

variable {p q : Parts} {text : String}

theorem IsText.signed_scan (h : p.IsText text) :
    ∃ cs rest, signed text.toList = (p.negative, cs) ∧ Mantissa.scan cs = (p.mantissa, rest) ∧
      IsExponent rest p.exponent ∧ p.mantissa.digits ≠ [] := by
  obtain ⟨sign, mantissa, exponent, htext, hsign, hmantissa, hexponent⟩ := h
  obtain ⟨hstops, hpoint⟩ := hexponent.stops
  refine ⟨mantissa ++ exponent, exponent, ?_, hmantissa.scan_append hstops hpoint, hexponent,
    hmantissa.digits_ne_nil⟩
  rw [htext]
  exact hsign.signed_append hmantissa.signed_append

/-- A text consists of its parts in one way only. -/
theorem IsText.unique (hp : p.IsText text) (hq : q.IsText text) : p = q := by
  obtain ⟨cs, rest, hsigned, hscan, hexponent, -⟩ := hp.signed_scan
  obtain ⟨cs', rest', hsigned', hscan', hexponent', -⟩ := hq.signed_scan
  obtain ⟨hnegative, rfl⟩ := Prod.mk.inj (hsigned.symm.trans hsigned')
  obtain ⟨hmantissa, rfl⟩ := Prod.mk.inj (hscan.symm.trans hscan')
  cases p
  cases q
  cases hnegative
  cases hmantissa
  cases hexponent.unique hexponent'
  rfl

/-- The digits of the mantissa without their point, after the sign. -/
def unscaled (p : Parts) : Int := withSign p.negative p.mantissa.coefficient

theorem number_eq (p : Parts) : p.number = p.unscaled * 10 ^ (-p.scale) := by
  have hten : (10 : ℚ) ≠ 0 := by norm_num
  have hexponent : p.exponent = p.mantissa.fraction.length + -p.scale := by
    unfold scale
    omega
  calc p.number
    _ = (-1) ^ p.negative.toNat * (p.mantissa.number * 10 ^ p.mantissa.fraction.length) *
          10 ^ (-p.scale) := by
      rw [number, hexponent, zpow_add₀ hten, zpow_natCast]
      ring
    _ = p.unscaled * 10 ^ (-p.scale) := by
      rw [← p.mantissa.coefficient_eq, unscaled, cast_withSign]

end Parts

/-! ### Reading -/

/-- The number that the digits of a decimal and its scale stand for. -/
def number (d : Decimal) : ℚ :=
  (-1) ^ d.isNegative.toNat * Nat.ofDigitChars 10 d.digits 0 * 10 ^ (-d.scale.value)

variable {d d' : Decimal} {p p' : Parts} {text text' : String}

theorem number_eq (d : Decimal) : d.number = d.unscaled * 10 ^ (-d.scale.value) := by
  rw [number, digits, Nat.ofDigitChars_ten_toDigits, ← cast_withSign, isNegative, withSign_natAbs]

theorem unscaled_eq_iff {m n k : Int} : (m : ℚ) * 10 ^ k = n * 10 ^ k ↔ m = n := by
  have hpower : (10 : ℚ) ^ k ≠ 0 := zpow_ne_zero k (by norm_num)
  rw [mul_left_inj' hpower, Int.cast_inj]

/-- Only texts that have the parts of a decimal are read. -/
theorem exists_isText_of_read (h : read text = .ok d) : ∃ p : Parts, p.IsText text := by
  obtain ⟨negative, cs, hsigned⟩ : ∃ negative cs, signed text.toList = (negative, cs) :=
    ⟨_, _, rfl⟩
  obtain ⟨mantissa, rest, hscan⟩ : ∃ mantissa rest, Mantissa.scan cs = (mantissa, rest) :=
    ⟨_, _, rfl⟩
  obtain ⟨hne, -, hread⟩ := (read_eq_ok_iff hsigned hscan).1 h
  obtain ⟨sign, hsign, htext⟩ := exists_isSign_of_signed hsigned
  obtain ⟨written, hwritten, rfl⟩ := Mantissa.exists_isText_of_scan hscan hne
  exact ⟨⟨negative, mantissa, _⟩, sign, written, rest, htext, hsign, hwritten,
    (readExponent_eq_ok_iff.1 hread).1⟩

/-- What is read from a text, by its parts. -/
theorem read_eq_ok_iff_of_isText (h : p.IsText text) :
    read text = .ok d ↔
      Width.long.Has p.exponent ∧ d.scale.value = p.scale ∧ d.unscaled = p.unscaled := by
  obtain ⟨cs, rest, hsigned, hscan, hexponent, hne⟩ := h.signed_scan
  rw [read_eq_ok_iff hsigned hscan, readExponent_eq_ok_iff]
  constructor
  · rintro ⟨-, hunscaled, hscale, hrange⟩
    have hvalue := hexponent.unique hscale
    rw [← hvalue] at hrange
    refine ⟨hrange, ?_, hunscaled⟩
    rw [Parts.scale, hvalue]
    omega
  · rintro ⟨hrange, hscale, hunscaled⟩
    have hvalue : (p.mantissa.fraction.length - d.scale.value : Int) = p.exponent := by
      rw [hscale, Parts.scale]
      omega
    rw [hvalue]
    exact ⟨hne, hunscaled, hexponent, hrange⟩

theorem exists_read_iff :
    (∃ d, read text = .ok d) ↔
      ∃ p : Parts, p.IsText text ∧ Width.long.Has p.exponent ∧ Width.long.Has p.scale := by
  constructor
  · rintro ⟨d, hd⟩
    obtain ⟨p, hp⟩ := exists_isText_of_read hd
    obtain ⟨hexponent, hscale, -⟩ := (read_eq_ok_iff_of_isText hp).1 hd
    exact ⟨p, hp, hexponent, hscale ▸ ⟨d.scale.lower, d.scale.upper⟩⟩
  · rintro ⟨p, hp, hexponent, hlower, hupper⟩
    exact ⟨⟨p.unscaled, p.scale, hlower, hupper⟩,
      (read_eq_ok_iff_of_isText hp).2 ⟨hexponent, rfl, rfl⟩⟩

theorem number_of_isText (hp : p.IsText text) (hd : read text = .ok d) :
    d.scale.value = p.scale ∧ d.number = p.number := by
  obtain ⟨-, hscale, hunscaled⟩ := (read_eq_ok_iff_of_isText hp).1 hd
  refine ⟨hscale, ?_⟩
  rw [number_eq, p.number_eq, hscale, hunscaled]

/-- A decimal is a number with a scale. -/
theorem eq_iff_number : d = d' ↔ d.number = d'.number ∧ d.scale.value = d'.scale.value := by
  constructor
  · rintro rfl
    exact ⟨rfl, rfl⟩
  · rintro ⟨hnumber, hscale⟩
    rw [number_eq, number_eq, hscale, unscaled_eq_iff] at hnumber
    exact Decimal.ext hnumber (Bounded.ext hscale)

/-! ### Digits of what was read -/

/-- No digit can be left out, and zero has no sign. -/
structure Canonical (d : Decimal) : Prop where
  ne_nil : d.digits ≠ []
  isDigit : ∀ c ∈ d.digits, c.isDigit = true
  eq_zero_of_head : d.digits.head? = some '0' → d.digits = ['0']
  isNegative_of_zero : d.digits = ['0'] → d.isNegative = false

/-- Only zero is written with a zero at the front. -/
theorem eq_zero_of_head_toDigits {n : Nat} (h : (Nat.toDigits 10 n).head? = some '0') : n = 0 := by
  induction n using Nat.strongRecOn with
  | ind n ih =>
    rcases Nat.lt_or_ge n 10 with hlt | hle
    · have hdigit : ∀ m < 10, m.digitChar = '0' → m = 0 := by decide
      rw [Nat.toDigits_of_lt_base hlt, List.head?_cons, Option.some_inj] at h
      exact hdigit n hlt h
    · -- the first digit is that of a tenth of the number, which is not zero
      rw [Nat.toDigits_of_base_le (by decide) hle,
        List.head?_append_of_ne_nil _ Nat.toDigits_ne_nil] at h
      have htenth := ih (n / 10) (by omega) h
      omega

theorem eq_zero_of_head_digits (h : d.digits.head? = some '0') : d.unscaled = 0 :=
  Int.natAbs_eq_zero.1 (eq_zero_of_head_toDigits h)

theorem canonical (d : Decimal) : d.Canonical where
  ne_nil := d.digits_ne_nil
  isDigit := d.isDigit_of_mem_digits
  eq_zero_of_head h := by
    rw [digits, eq_zero_of_head_digits h]
    rfl
  isNegative_of_zero h := by
    have hzero : d.unscaled = 0 := eq_zero_of_head_digits (by rw [h]; rfl)
    rw [isNegative, hzero]
    rfl

/-- **Decimal texts.** A text is read just where it has the parts of a decimal and its exponent and
scale are in the range. What is read has this scale and is the number that the text denotes. Its
digits start with no zero that can be left out, and zero has no sign. So two texts are read as the
same decimal just where they denote the same number with the same scale. -/
theorem read_grammar (text : String) :
    ((∃ d, read text = .ok d) ↔
      ∃ p : Parts, p.IsText text ∧ Width.long.Has p.exponent ∧ Width.long.Has p.scale) ∧
    (∀ d, read text = .ok d → d.Canonical ∧
      ∀ p : Parts, p.IsText text → d.scale.value = p.scale ∧ d.number = p.number) ∧
    ∀ text' d d', read text = .ok d → read text' = .ok d' →
      ∀ p p' : Parts, p.IsText text → p'.IsText text' →
        (d = d' ↔ p.number = p'.number ∧ p.scale = p'.scale) := by
  refine ⟨exists_read_iff, fun d hd => ⟨d.canonical, fun p hp => number_of_isText hp hd⟩, ?_⟩
  intro text' d d' hd hd' p p' hp hp'
  obtain ⟨hscale, hnumber⟩ := number_of_isText hp hd
  obtain ⟨hscale', hnumber'⟩ := number_of_isText hp' hd'
  rw [eq_iff_number, hscale, hnumber, hscale', hnumber']

end Decimal
end Numeral

namespace Sample

open Numeral

/-- The parts of `-1.50e1`. -/
def scientific : Decimal.Parts := ⟨true, ⟨['1'], ['5', '0']⟩, 1⟩

/-- The parts of `-015.0`. -/
def plain : Decimal.Parts := ⟨true, ⟨['0', '1', '5'], ['0']⟩, 0⟩

theorem scientific_isText : scientific.IsText "-1.50e1" := by
  refine ⟨['-'], ['1', '.', '5', '0'], ['e', '1'], rfl, .minus, ?_, ?_⟩
  · exact .pointed (List.all_eq_true.1 rfl) (List.all_eq_true.1 rfl) (List.cons_ne_nil _ _)
  · exact .some (.inl rfl) .none (List.all_eq_true.1 rfl) (List.cons_ne_nil _ _)

theorem plain_isText : plain.IsText "-015.0" := by
  refine ⟨['-'], ['0', '1', '5', '.', '0'], [], rfl, .minus, ?_, .none⟩
  exact .pointed (List.all_eq_true.1 rfl) (List.all_eq_true.1 rfl) (List.cons_ne_nil _ _)

end Sample

/-- Two texts of one number with one scale. -/
theorem Numeral.Decimal.read_grammar_sample :
    (∃ d, read "-1.50e1" = .ok d ∧ read "-015.0" = .ok d) ∧
      Sample.scientific.number = Sample.plain.number ∧
      Sample.scientific.scale = Sample.plain.scale := by
  obtain ⟨-, -, hequal⟩ := read_grammar "-1.50e1"
  have hscientific : read "-1.50e1" = .ok ⟨-150, ⟨1, by decide, by decide⟩⟩ := rfl
  have hplain : read "-015.0" = .ok ⟨-150, ⟨1, by decide, by decide⟩⟩ := rfl
  exact ⟨⟨_, hscientific, hplain⟩, (hequal _ _ _ hscientific hplain _ _ Sample.scientific_isText
    Sample.plain_isText).1 rfl⟩

end TypedRouting
