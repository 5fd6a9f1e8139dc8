import TypedRouting.Proofs.DecimalText
import TypedRouting.Proofs.Outcome
import TypedRouting.Scalar.Conversion

/-!
# Whole numbers as bounded numbers and as decimals

`Numeral.Denotes` says which whole number a text denotes: a sign or none, and digits. The bounded
numbers of each width and the decimals have readers of their own, and all of them agree with it.

* `Bounded.read_eq_ok_iff_denotes`: a width reads the texts of the numbers in its range.
* `Decimal.read_eq_ok_iff_denotes`: decimals have all texts of whole numbers, and those with neither
  a point nor an exponent are no others.
* `ScalarType.convert_whole_decimal`: so a number is the same at every width that has it, and the
  same as a decimal.
-/

namespace TypedRouting
namespace Numeral

variable {w w' : Width} {text : String} {m n : Int}

/-- The text is a sign or none, followed by decimal digits, and stands for the number `n`. -/
def Denotes (text : String) (n : Int) : Prop :=
  ∃ negative digits, signed text.toList = (negative, digits) ∧ digits ≠ [] ∧
    (∀ c ∈ digits, c.isDigit = true) ∧ n = withSign negative (Nat.ofDigitChars 10 digits 0)

theorem Denotes.unique (h : Denotes text m) (h' : Denotes text n) : m = n := by
  obtain ⟨negative, digits, hsigned, -, -, rfl⟩ := h
  obtain ⟨negative', digits', hsigned', -, -, rfl⟩ := h'
  cases hsigned.symm.trans hsigned'
  rfl

theorem mem_of_signed {negative : Bool} {cs digits : List Char}
    (h : signed cs = (negative, digits)) {c : Char} (hc : c ∈ digits) : c ∈ cs := by
  unfold signed at h
  split at h
  · cases h
    exact List.mem_cons_of_mem _ hc
  · cases h
    exact List.mem_cons_of_mem _ hc
  · cases h
    exact hc

/-! ### Bounded numbers -/

theorem Width.limit_le (h : w.bits ≤ w'.bits) : w.limit ≤ w'.limit :=
  Nat.pow_le_pow_right (by decide) (Nat.sub_le_sub_right h 1)

namespace Bounded

/-- The same number in a range that is no smaller. -/
def widen (n : Bounded w) (h : w.bits ≤ w'.bits) : Bounded w' where
  value := n.value
  lower := by
    have := Width.limit_le h
    have := n.lower
    omega
  upper := by
    have := Width.limit_le h
    have := n.upper
    omega

theorem read_eq_ok_iff_denotes {n : Bounded w} : read w text = .ok n ↔ Denotes text n.value := by
  obtain ⟨negative, digits, hsigned⟩ : ∃ negative digits,
      signed text.toList = (negative, digits) := ⟨_, _, rfl⟩
  rw [read_eq_ok_iff hsigned]
  constructor
  · intro hdigits
    exact ⟨negative, digits, hsigned, hdigits⟩
  · rintro ⟨_, _, hsigned', hdigits⟩
    cases hsigned.symm.trans hsigned'
    exact hdigits

/-- A width reads the text of a whole number just where it has the number. -/
theorem exists_read_iff (h : Denotes text m) :
    (∃ n, read w text = .ok n) ↔ -(w.limit : Int) ≤ m ∧ m < w.limit := by
  constructor
  · rintro ⟨n, hn⟩
    obtain rfl : m = n.value := h.unique (read_eq_ok_iff_denotes.1 hn)
    exact ⟨n.lower, n.upper⟩
  · rintro ⟨hlower, hupper⟩
    exact ⟨⟨m, hlower, hupper⟩, read_eq_ok_iff_denotes.2 h⟩

end Bounded

/-! ### Decimals -/

theorem Mantissa.scan_of_no_point {cs : List Char} (h : '.' ∉ cs) :
    scan cs = (⟨cs.takeWhile Char.isDigit, []⟩, cs.dropWhile Char.isDigit) := by
  unfold scan
  split
  · next rest hrest =>
    have hmem : '.' ∈ cs.dropWhile Char.isDigit := by simp [hrest]
    exact absurd ((List.dropWhile_suffix _).mem hmem) h
  · rfl

namespace Decimal

variable {d : Decimal}

/-- A whole number as a decimal without a scale. -/
def ofInt (n : Int) : Decimal := ⟨n, .zero .long⟩

/-- A text makes a decimal of its sign, its mantissa and its exponent. -/
theorem read_eq_ok_iff {negative : Bool} {cs rest : List Char} {mantissa : Mantissa}
    (hsigned : signed text.toList = (negative, cs)) (hscan : Mantissa.scan cs = (mantissa, rest)) :
    read text = .ok d ↔
      mantissa.digits ≠ [] ∧ d.unscaled = withSign negative mantissa.coefficient ∧
        readExponent rest = .ok (mantissa.fraction.length - d.scale.value) := by
  unfold read
  simp only [hsigned, hscan]
  by_cases hdigits : mantissa.digits = []
  · simp [hdigits]
  · rw [if_neg hdigits]
    cases readExponent rest with
    | error fault => simp
    | ok exponent =>
      cases hscale : Bounded.ofInt? .long (mantissa.fraction.length - exponent) with
      | none =>
        have hne : exponent ≠ mantissa.fraction.length - d.scale.value := by
          rintro rfl
          have hsome := Bounded.ofInt?_value d.scale
          rw [Int.sub_sub_self, hsome] at hscale
          cases hscale
        simp [hscale, hne]
      | some scale =>
        have hvalue := Bounded.ofInt?_eq_some_iff.1 hscale
        simp only [hscale, Except.ok.injEq, Decimal.ext_iff, Bounded.ext_iff, hvalue, ne_eq,
          hdigits, not_false_eq_true, true_and]
        refine and_congr eq_comm ?_
        omega

/-- A text with neither a point nor an exponent. -/
def IsBare (text : String) : Prop :=
  '.' ∉ text.toList ∧ 'e' ∉ text.toList ∧ 'E' ∉ text.toList

instance (text : String) : Decidable (IsBare text) :=
  inferInstanceAs (Decidable ('.' ∉ text.toList ∧ 'e' ∉ text.toList ∧ 'E' ∉ text.toList))

theorem readExponent_eq_ok_iff_of_bare {rest : List Char} (hlower : 'e' ∉ rest)
    (hupper : 'E' ∉ rest) {exponent : Int} :
    readExponent rest = .ok exponent ↔ rest = [] ∧ exponent = 0 := by
  cases rest with
  | nil => simp [readExponent, eq_comm]
  | cons c rest =>
    have hlower' : c ≠ 'e' := fun hc => hlower (by simp [hc])
    have hupper' : c ≠ 'E' := fun hc => hupper (by simp [hc])
    simp [readExponent, hlower', hupper']

theorem read_of_denotes (h : Denotes text n) : read text = .ok (ofInt n) := by
  obtain ⟨negative, digits, hsigned, hne, hdigits, rfl⟩ := h
  have hscan := Mantissa.scan_whole hdigits Run.stops_nil nofun
  rw [List.append_nil] at hscan
  rw [read_eq_ok_iff hsigned hscan]
  simp [Mantissa.digits, Mantissa.coefficient, hne, ofInt, readExponent, Bounded.zero]

theorem denotes_of_read (hbare : IsBare text) (h : read text = .ok d) :
    ∃ n, Denotes text n ∧ d = ofInt n := by
  obtain ⟨negative, cs, hsigned⟩ : ∃ negative cs, signed text.toList = (negative, cs) :=
    ⟨_, _, rfl⟩
  obtain ⟨hpoint, hlower, hupper⟩ := hbare
  have hscan := Mantissa.scan_of_no_point fun hmem => hpoint (mem_of_signed hsigned hmem)
  obtain ⟨hne, hunscaled, hexponent⟩ := (read_eq_ok_iff hsigned hscan).1 h
  have hrest : ∀ c ∈ cs.dropWhile Char.isDigit, c ∈ text.toList := fun c hc =>
    mem_of_signed hsigned ((List.dropWhile_suffix _).mem hc)
  obtain ⟨hnil, hscale⟩ := (readExponent_eq_ok_iff_of_bare (fun hmem => hlower (hrest _ hmem))
    fun hmem => hupper (hrest _ hmem)).1 hexponent
  -- nothing is left after the digits
  obtain ⟨hall, hdigits, -⟩ := Run.span_iff.1 ⟨rfl, hnil⟩
  rw [List.append_nil] at hall
  simp only [Mantissa.digits, Mantissa.coefficient, List.append_nil, ← hall] at hne hunscaled
  refine ⟨d.unscaled, ⟨negative, cs, hsigned, hne, ?_, hunscaled⟩, Decimal.ext rfl ?_⟩
  · rwa [← hall] at hdigits
  · refine Bounded.ext ?_
    simpa [ofInt, Bounded.zero] using hscale

/-- A text with neither point nor exponent is a decimal just where it denotes a whole number. -/
theorem read_eq_ok_iff_denotes (hbare : IsBare text) :
    read text = .ok d ↔ ∃ n, Denotes text n ∧ d = ofInt n := by
  refine ⟨denotes_of_read hbare, ?_⟩
  rintro ⟨n, hn, rfl⟩
  exact read_of_denotes hn

end Decimal
end Numeral

/-! ### Conversion -/

open Numeral

namespace ScalarType

theorem convert_eq_ok_iff {t : ScalarType} {text : String} {x : t.Carrier} :
    t.convert text = .ok x ↔ t.read text = .ok x := by
  simp [convert]

theorem convert_whole_eq_ok_iff {w : Width} {text : String} {n : Bounded w} :
    (ScalarType.whole w).convert text = .ok n ↔ Denotes text n.value := by
  rw [convert_eq_ok_iff, ← Bounded.read_eq_ok_iff_denotes]
  exact Outcome.mapError_eq_ok

theorem convert_decimal_eq_ok_iff {text : String} {d : Decimal} :
    ScalarType.decimal.convert text = .ok d ↔ Decimal.read text = .ok d := by
  rw [convert_eq_ok_iff]
  exact Outcome.mapError_eq_ok

/-- **Whole numbers.** What a width reads is read by the larger ones as the same number, and by
decimals as that number without a scale. A decimal whose text has neither a point nor an exponent
has no scale, and a width reads the text just where it has the number; that number it reads. -/
theorem convert_whole_decimal (text : String) :
    (∀ {w w' : Width}, w.bits ≤ w'.bits → ∀ n : Bounded w,
      (ScalarType.whole w).convert text = .ok n →
        ∃ m : Bounded w', (ScalarType.whole w').convert text = .ok m ∧ m.value = n.value) ∧
    (∀ n : Bounded .long, (ScalarType.whole .long).convert text = .ok n →
      ∃ d : Decimal, ScalarType.decimal.convert text = .ok d ∧ d.scale.value = 0 ∧
        (d.isNegative = true ↔ n.value < 0) ∧ d.digits = Nat.toDigits 10 n.value.natAbs) ∧
    (Decimal.IsBare text → ∀ d : Decimal, ScalarType.decimal.convert text = .ok d →
      d.scale.value = 0 ∧ ∀ w,
        ((∃ n : Bounded w, (ScalarType.whole w).convert text = .ok n) ↔
          -(w.limit : Int) ≤ d.unscaled ∧ d.unscaled < w.limit) ∧
        ∀ n : Bounded w, (ScalarType.whole w).convert text = .ok n → n.value = d.unscaled) := by
  refine ⟨fun {w w'} hbits n hn => ?_, fun n hn => ?_, fun hbare d hd => ?_⟩
  · have hdenotes : Denotes text n.value := convert_whole_eq_ok_iff.1 hn
    exact ⟨n.widen hbits, convert_whole_eq_ok_iff.2 hdenotes, rfl⟩
  · have hread := Decimal.read_of_denotes (convert_whole_eq_ok_iff.1 hn)
    exact ⟨.ofInt n.value, convert_decimal_eq_ok_iff.2 hread, rfl, decide_eq_true_iff, rfl⟩
  · have hread : Decimal.read text = .ok d := convert_decimal_eq_ok_iff.1 hd
    obtain ⟨m, hm, rfl⟩ := (Decimal.read_eq_ok_iff_denotes hbare).1 hread
    refine ⟨rfl, fun w => ⟨?_, fun n hn => (convert_whole_eq_ok_iff.1 hn).unique hm⟩⟩
    have hbounded : ∀ n : Bounded w, (ScalarType.whole w).convert text = .ok n ↔
        Bounded.read w text = .ok n := fun n =>
      convert_whole_eq_ok_iff.trans Bounded.read_eq_ok_iff_denotes.symm
    exact (exists_congr hbounded).trans (Bounded.exists_read_iff hm)

/-- The least number of a byte after a zero, and the text of the next one below it. -/
theorem convert_whole_decimal_sample :
    (∃ m : Bounded .long, (ScalarType.whole .long).convert "-0128" = .ok m ∧ m.value = -128) ∧
    Decimal.IsBare "-129" ∧ ScalarType.decimal.convert "-129" = .ok (.ofInt (-129)) ∧
    ¬∃ n : Bounded .byte, (ScalarType.whole .byte).convert "-129" = .ok n := by
  obtain ⟨hwiden, -, -⟩ := convert_whole_decimal "-0128"
  obtain ⟨-, -, hbare⟩ := convert_whole_decimal "-129"
  have hbyte : (ScalarType.whole .byte).convert "-0128" = .ok ⟨-128, by decide, by decide⟩ := rfl
  have hplain : Decimal.IsBare "-129" := by decide
  have hdecimal : ScalarType.decimal.convert "-129" = .ok (.ofInt (-129)) := rfl
  refine ⟨hwiden (by decide) _ hbyte, hplain, hdecimal, ?_⟩
  rw [((hbare hplain _ hdecimal).2 .byte).1]
  decide

end ScalarType
end TypedRouting
