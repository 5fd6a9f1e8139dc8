import TypedRouting.Proofs.Runs
import TypedRouting.Proofs.WholeNumbers
import TypedRouting.Numeral.Decimal

/-!
# Decimal numbers read back from their texts

A decimal is written in plain or in scientific form. Either text starts with a mantissa that has the
digits of the number, maybe after zeros, and what the point cuts off and the exponent make up the
scale.

* `Decimal.read_text`: the text reads back as the number itself, unless it is in scientific form and
  the exponent is too large to be read.
* `Decimal.text_refused`: there are such texts, also of numbers that were read from one.
-/

namespace TypedRouting
namespace Numeral

/-! ### Mantissas -/

namespace Mantissa

variable {whole fraction rest cs : List Char}

theorem scan_whole (hwhole : ∀ c ∈ whole, c.isDigit = true)
    (hrest : Run.Stops Char.isDigit rest) (hpoint : ∀ cs, rest ≠ '.' :: cs) :
    scan (whole ++ rest) = (⟨whole, []⟩, rest) := by
  unfold scan
  rw [Run.takeWhile_append hwhole hrest, Run.dropWhile_append hwhole hrest]
  split
  · next cs => exact absurd rfl (hpoint cs)
  · rfl

theorem scan_pointed (hwhole : ∀ c ∈ whole, c.isDigit = true)
    (hfraction : ∀ c ∈ fraction, c.isDigit = true) (hrest : Run.Stops Char.isDigit rest) :
    scan (whole ++ '.' :: (fraction ++ rest)) = (⟨whole, fraction⟩, rest) := by
  have hpoint : Run.Stops Char.isDigit ('.' :: (fraction ++ rest)) := Run.stops_cons.2 (by decide)
  unfold scan
  rw [Run.takeWhile_append hwhole hpoint, Run.dropWhile_append hwhole hpoint]
  simp only
  rw [Run.takeWhile_append hfraction hrest, Run.dropWhile_append hfraction hrest]

theorem whole_scan (cs : List Char) : (scan cs).1.whole = cs.takeWhile Char.isDigit := by
  unfold scan
  dsimp only
  split <;> rfl

/-- Where digits come first there is no sign. -/
theorem signed_of_whole_ne_nil (h : (scan cs).1.whole ≠ []) : signed cs = (false, cs) := by
  rw [whole_scan] at h
  unfold signed
  split
  · simp at h
  · simp at h
  · rfl

end Mantissa

namespace Decimal

variable {digits rest : List Char}

/-- Digits in plain form, with `scale` of them after the point. -/
theorem scan_plainDigits (hdigits : ∀ c ∈ digits, c.isDigit = true) (hne : digits ≠ [])
    (scale : Nat) :
    ∃ m zeros, Mantissa.scan (plainDigits digits scale) = (m, []) ∧ m.whole ≠ [] ∧
      m.fraction.length = scale ∧ m.digits = List.replicate zeros '0' ++ digits := by
  unfold plainDigits
  split
  · next hscale =>
    have hscan := Mantissa.scan_whole hdigits Run.stops_nil nofun
    rw [List.append_nil] at hscan
    exact ⟨_, 0, hscan, hne, hscale.symm, by simp [Mantissa.digits]⟩
  · split
    · next hlt =>
      have hwhole : ∀ c ∈ digits.take (digits.length - scale), c.isDigit = true :=
        fun c hc => hdigits c (List.mem_of_mem_take hc)
      have hfraction : ∀ c ∈ digits.drop (digits.length - scale), c.isDigit = true :=
        fun c hc => hdigits c (List.mem_of_mem_drop hc)
      have hscan := Mantissa.scan_pointed hwhole hfraction Run.stops_nil
      rw [List.append_nil] at hscan
      refine ⟨_, 0, hscan, ?_, ?_, by simp [Mantissa.digits]⟩
      · show digits.take (digits.length - scale) ≠ []
        refine List.ne_nil_of_length_pos ?_
        rw [List.length_take]
        omega
      · show (digits.drop (digits.length - scale)).length = scale
        rw [List.length_drop]
        omega
    · next hle =>
      have hfraction : ∀ c ∈ List.replicate (scale - digits.length) '0' ++ digits,
          c.isDigit = true := by
        intro c hc
        rcases List.mem_append.1 hc with hzero | hdigit
        · rw [List.eq_of_mem_replicate hzero]
          rfl
        · exact hdigits c hdigit
      have hzero : ∀ c ∈ ['0'], c.isDigit = true := List.forall_mem_singleton.2 rfl
      have hscan := Mantissa.scan_pointed hzero hfraction Run.stops_nil
      rw [List.append_nil] at hscan
      refine ⟨_, scale - digits.length + 1, hscan, List.cons_ne_nil _ _, ?_, ?_⟩
      · show (List.replicate (scale - digits.length) '0' ++ digits).length = scale
        rw [List.length_append, List.length_replicate]
        omega
      · simp [Mantissa.digits, List.replicate_succ]

/-- Digits in scientific form, with one of them before the point. -/
theorem scan_pointed (hdigits : ∀ c ∈ digits, c.isDigit = true) (hne : digits ≠ [])
    (hrest : Run.Stops Char.isDigit rest) (hpoint : ∀ cs, rest ≠ '.' :: cs) :
    ∃ m, Mantissa.scan (pointed digits ++ rest) = (m, rest) ∧ m.whole ≠ [] ∧
      m.fraction.length = digits.length - 1 ∧ m.digits = digits := by
  match digits with
  | [] => exact absurd rfl hne
  | [d] => exact ⟨⟨[d], []⟩, Mantissa.scan_whole hdigits hrest hpoint, by simp, rfl, rfl⟩
  | d :: e :: ds =>
    obtain ⟨hd, hds⟩ := List.forall_mem_cons.1 hdigits
    have hscan := Mantissa.scan_pointed (List.forall_mem_singleton.2 hd) hds hrest
    exact ⟨⟨[d], e :: ds⟩, hscan, by simp, rfl, rfl⟩

/-! ### Exponents -/

theorem exponentText_eq (e : Int) :
    exponentText e = 'E' :: (if e < 0 then '-' else '+') :: Nat.toDigits 10 e.natAbs := by
  unfold exponentText
  split <;> rfl

theorem signed_sign (e : Int) (cs : List Char) :
    signed ((if e < 0 then '-' else '+') :: cs) = (decide (e < 0), cs) := by
  split
  · next hneg => simp [signed, hneg]
  · next hpos => simp [signed, hpos]

/-- An exponent reads back where it is not beyond the range. -/
theorem readExponent_exponentText {e : Int} (hlower : -(Width.long.limit : Int) ≤ e) :
    readExponent (exponentText e) =
      if e < Width.long.limit then .ok e else .error .badExponent := by
  rw [exponentText_eq, readExponent, if_pos (.inr rfl)]
  generalize hcs : (if e < 0 then '-' else '+') :: Nat.toDigits 10 e.natAbs = cs
  have hread : ∀ m, Bounded.read .long (String.ofList cs) = .ok m ↔ m.value = e := by
    intro m
    have hsigned : signed (String.ofList cs).toList =
        (decide (e < 0), Nat.toDigits 10 e.natAbs) := by
      rw [String.toList_ofList, ← hcs, signed_sign]
    have hdigits : ∀ c ∈ Nat.toDigits 10 e.natAbs, c.isDigit = true := fun c hc =>
      Nat.isDigit_of_mem_toDigits (by decide) (by decide) hc
    rw [Bounded.read_eq_ok_iff hsigned, Nat.ofDigitChars_ten_toDigits, withSign_natAbs]
    simp only [ne_eq, Nat.toDigits_ne_nil, not_false_eq_true, true_and, and_iff_right hdigits]
  by_cases hupper : e < Width.long.limit
  · rw [if_pos hupper, (hread ⟨e, hlower, hupper⟩).2 rfl]
  · rw [if_neg hupper]
    cases hm : Bounded.read .long (String.ofList cs) with
    | error fault => rfl
    | ok m =>
      have hvalue := (hread m).1 hm
      exact absurd (hvalue ▸ m.upper) hupper

/-! ### Whole texts -/

theorem isDigit_of_mem_digits {d : Decimal} : ∀ c ∈ d.digits, c.isDigit = true := by
  intro c hc
  exact Nat.isDigit_of_mem_toDigits (by decide) (by decide) hc

theorem digits_ne_nil (d : Decimal) : d.digits ≠ [] := Nat.toDigits_ne_nil

theorem length_digits_pos (d : Decimal) : 0 < d.digits.length := Nat.length_toDigits_pos

theorem lower_adjustedExponent (d : Decimal) :
    -(Width.long.limit : Int) ≤ d.adjustedExponent := by
  have hdigits := d.length_digits_pos
  have hscale := d.scale.upper
  unfold adjustedExponent
  omega

/-- Zeros before the digits do not count. -/
theorem coefficient_of_digits {d : Decimal} {m : Mantissa} {zeros : Nat}
    (h : m.digits = List.replicate zeros '0' ++ d.digits) :
    m.coefficient = d.unscaled.natAbs := by
  rw [Mantissa.coefficient, h, Nat.ofDigitChars_append, Nat.ofDigitChars_replicate_zero,
    Nat.mul_zero, digits, Nat.ofDigitChars_ten_toDigits]

/-- The mantissa of the text has the digits of the number. What follows it is read as the exponent
that, taken from the digits after the point, leaves the scale. -/
theorem scan_unsignedText (d : Decimal) :
    ∃ m rest, Mantissa.scan d.unsignedText = (m, rest) ∧ m.whole ≠ [] ∧
      m.coefficient = d.unscaled.natAbs ∧
      readExponent rest =
        if d.isPlain ∨ d.adjustedExponent < Width.long.limit then
          .ok (m.fraction.length - d.scale.value)
        else .error .badExponent := by
  unfold unsignedText
  split
  · next hplain =>
    obtain ⟨m, zeros, hscan, hwhole, hlength, hzeros⟩ :=
      scan_plainDigits d.isDigit_of_mem_digits d.digits_ne_nil d.scale.value.toNat
    refine ⟨m, [], hscan, hwhole, coefficient_of_digits hzeros, ?_⟩
    have hscale : 0 ≤ d.scale.value := by
      simp only [isPlain, Bool.and_eq_true, decide_eq_true_eq] at hplain
      exact hplain.1
    rw [if_pos (.inl hplain), hlength, readExponent, Int.toNat_of_nonneg hscale, Int.sub_self]
  · next hplain =>
    have hstops : Run.Stops Char.isDigit (exponentText d.adjustedExponent) := by
      rw [exponentText_eq]
      exact Run.stops_cons.2 (by decide)
    have hpoint : ∀ cs, exponentText d.adjustedExponent ≠ '.' :: cs := by
      rw [exponentText_eq]
      simp
    obtain ⟨m, hscan, hwhole, hlength, hdigits⟩ :=
      scan_pointed d.isDigit_of_mem_digits d.digits_ne_nil hstops hpoint
    have hzeros : m.digits = List.replicate 0 '0' ++ d.digits := hdigits
    refine ⟨m, _, hscan, hwhole, coefficient_of_digits hzeros, ?_⟩
    have hexponent : (m.fraction.length - d.scale.value : Int) = d.adjustedExponent := by
      have hpos := d.length_digits_pos
      unfold adjustedExponent
      omega
    rw [readExponent_exponentText d.lower_adjustedExponent, hexponent]
    simp [hplain]

theorem signed_text (d : Decimal) : signed d.text.toList = (d.isNegative, d.unsignedText) := by
  obtain ⟨m, rest, hscan, hwhole, -⟩ := d.scan_unsignedText
  rw [text, String.toList_ofList]
  cases d.isNegative with
  | true => rfl
  | false =>
    have hfirst : (Mantissa.scan d.unsignedText).1.whole ≠ [] := by
      rw [hscan]
      exact hwhole
    exact Mantissa.signed_of_whole_ne_nil hfirst

/-- **Texts read back.** A decimal reads back from its text with the same sign, digits and scale,
unless the text is in scientific form with an exponent beyond the range. Then it is refused. -/
theorem read_text (d : Decimal) :
    read d.text =
      if d.isPlain ∨ d.adjustedExponent < Width.long.limit then .ok d
      else .error .badExponent := by
  obtain ⟨m, rest, hscan, hwhole, hcoefficient, hexponent⟩ := d.scan_unsignedText
  have hdigits : m.digits ≠ [] := by simp [Mantissa.digits, hwhole]
  have hsign : withSign d.isNegative m.coefficient = d.unscaled := by
    rw [hcoefficient]
    exact withSign_natAbs d.unscaled
  unfold read
  rw [d.signed_text]
  simp only [hscan, if_neg hdigits, hexponent]
  by_cases hread : d.isPlain ∨ d.adjustedExponent < Width.long.limit
  · have hscale : (m.fraction.length - (m.fraction.length - d.scale.value) : Int) =
        d.scale.value := by omega
    simp only [if_pos hread, hscale, Bounded.ofInt?_value]
    exact congrArg Except.ok (Decimal.ext hsign rfl)
  · simp only [if_neg hread]

/-- Twelve, with the largest exponent that can be read. -/
def twelveLarge : Decimal := ⟨12, ⟨-9223372036854775807, by decide, by decide⟩⟩

/-- A decimal that was read need not read back from its text. -/
theorem text_refused :
    ¬ ∀ (text : String) (d : Decimal), read text = .ok d → read d.text = .ok d := by
  intro h
  have hread : read "12e9223372036854775807" = .ok twelveLarge := rfl
  have htext : twelveLarge.text = "1.2E+9223372036854775808" := by decide +kernel
  have hagain := h _ _ hread
  rw [htext] at hagain
  cases hagain

end Decimal
end Numeral
end TypedRouting
