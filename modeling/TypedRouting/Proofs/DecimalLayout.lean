import TypedRouting.Proofs.DecimalGrammar

/-!
# Layouts of decimals

The text of a decimal has one of four layouts: the digits alone, the digits with a point among them,
zeros before the digits, or a point after the first digit and an exponent. All of them are texts of
the grammar, and what the grammar finds in a text leads back to the number.

* `Decimal.isText_unsignedText`: the mantissa and the exponent of a text without its sign.
* `Decimal.text_unambiguous`: a text has the sign, the digits and the scale of its number, so it
  belongs to no other. There is an exponent just for large and very small numbers, and otherwise at
  most five zeros stand between the point and the digits.
-/

namespace TypedRouting
namespace Numeral

/-- There is an `e` in the text, in either case. -/
def HasExponent (text : String) : Prop := 'e' ∈ text.toList ∨ 'E' ∈ text.toList

instance (text : String) : Decidable (HasExponent text) :=
  inferInstanceAs (Decidable ('e' ∈ text.toList ∨ 'E' ∈ text.toList))

variable {sign written exponent : List Char} {negative : Bool} {m : Mantissa} {n : Int}
  {text : String}

/-! ### Where an exponent is -/

/-- No character of the text is an `e`. -/
def Letterless (cs : List Char) : Prop := ∀ c ∈ cs, c ≠ 'e' ∧ c ≠ 'E'

theorem ne_e_of_isDigit {c : Char} (h : c.isDigit = true) : c ≠ 'e' ∧ c ≠ 'E' := by
  constructor
  · rintro rfl
    cases h
  · rintro rfl
    cases h

theorem IsSign.letterless (h : IsSign sign negative) : Letterless sign := by
  cases h <;> simp [Letterless]

theorem Mantissa.IsText.letterless (h : m.IsText written) : Letterless written := by
  cases h with
  | bare hwhole hne => exact fun c hc => ne_e_of_isDigit (hwhole c hc)
  | pointed hwhole hfraction hne =>
    intro c hc
    rcases List.mem_append.1 hc with hc | hc
    · exact ne_e_of_isDigit (hwhole c hc)
    · rcases List.mem_cons.1 hc with rfl | hc
      · decide
      · exact ne_e_of_isDigit (hfraction c hc)

/-- The only letter of a number is that of its exponent. -/
theorem hasExponent_iff (htext : text.toList = sign ++ (written ++ exponent))
    (hsign : IsSign sign negative) (hwritten : m.IsText written)
    (hexponent : IsExponent exponent n) :
    HasExponent text ↔ exponent ≠ [] := by
  have hnone : Letterless (sign ++ written) := by
    intro c hc
    rcases List.mem_append.1 hc with hc | hc
    · exact hsign.letterless c hc
    · exact hwritten.letterless c hc
  unfold HasExponent
  rw [htext, ← List.append_assoc]
  cases hexponent with
  | none =>
    rw [List.append_nil]
    refine iff_of_false ?_ (fun h => h rfl)
    rintro (hmem | hmem)
    · exact (hnone _ hmem).1 rfl
    · exact (hnone _ hmem).2 rfl
  | some hmarker hsign' hdigits hne =>
    refine iff_of_true ?_ (List.cons_ne_nil _ _)
    rcases hmarker with rfl | rfl
    · exact .inl (by simp)
    · exact .inr (by simp)

/-! ### Digits that count -/

/-- The digits from the first that is not zero on, and one zero where there is none. -/
def Mantissa.significant (m : Mantissa) : List Char :=
  match m.digits.dropWhile (· == '0') with
  | [] => ['0']
  | c :: cs => c :: cs

namespace Decimal

variable {d d' : Decimal} {digits : List Char}

/-- Zeros before the digits of a number do not count. -/
theorem significant_of_digits {k : Nat} (h : m.digits = List.replicate k '0' ++ d.digits) :
    m.significant = d.digits := by
  have hzeros : ∀ c ∈ List.replicate k '0', (c == '0') = true := by
    intro c hc
    rw [List.eq_of_mem_replicate hc]
    rfl
  unfold Mantissa.significant
  rw [h, List.dropWhile_append_of_pos hzeros]
  by_cases hhead : d.digits.head? = some '0'
  · rw [d.canonical.eq_zero_of_head hhead]
    rfl
  · have hstops : Run.Stops (· == '0') d.digits := by
      intro c hc
      rw [Option.mem_def] at hc
      refine beq_eq_false_iff_ne.2 ?_
      rintro rfl
      exact hhead hc
    have hdrop : ([] ++ d.digits).dropWhile (· == '0') = d.digits :=
      Run.dropWhile_append nofun hstops
    rw [List.nil_append] at hdrop
    rw [hdrop]
    split
    · next hnil => exact absurd hnil d.digits_ne_nil
    · next c cs hcons => exact hcons.symm

/-! ### The parts of a text -/

theorem isExponent_exponentText (e : Int) : IsExponent (exponentText e) e := by
  rw [exponentText_eq, isExponent_cons_iff]
  refine ⟨.inr rfl, decide (e < 0), Nat.toDigits 10 e.natAbs, ?_, Nat.toDigits_ne_nil, ?_, ?_⟩
  · rw [String.toList_ofList, signed_sign]
  · exact fun c hc => Nat.isDigit_of_mem_toDigits (by decide) (by decide) hc
  · rw [Nat.ofDigitChars_ten_toDigits, withSign_natAbs]

/-- Without its sign, a text is a mantissa with the digits of the number, maybe after zeros, and an
exponent that leaves the scale. The exponent is left out in the plain form. -/
theorem isText_unsignedText (d : Decimal) :
    ∃ (m : Mantissa) (written exponent : List Char) (n : Int) (k : Nat),
      d.unsignedText = written ++ exponent ∧ m.IsText written ∧ IsExponent exponent n ∧
      m.digits = List.replicate k '0' ++ d.digits ∧ m.fraction.length - n = d.scale.value ∧
      (exponent ≠ [] ↔ d.isPlain = false) := by
  unfold unsignedText
  split
  · next hplain =>
    obtain ⟨m, k, hscan, hwhole, hlength, hdigits⟩ :=
      scan_plainDigits d.isDigit_of_mem_digits d.digits_ne_nil d.scale.value.toNat
    have hne : m.digits ≠ [] := by simp [Mantissa.digits, hwhole]
    obtain ⟨written, hwritten, htext⟩ := Mantissa.exists_isText_of_scan hscan hne
    have hscale : 0 ≤ d.scale.value := by
      simp only [isPlain, Bool.and_eq_true, decide_eq_true_eq] at hplain
      exact hplain.1
    refine ⟨m, written, [], 0, k, htext, hwritten, .none, hdigits, ?_, by simp [hplain]⟩
    rw [hlength, Int.toNat_of_nonneg hscale, Int.sub_zero]
  · next hplain =>
    have hexponent := isExponent_exponentText d.adjustedExponent
    obtain ⟨m, hscan, hwhole, hlength, hdigits⟩ :=
      scan_pointed d.isDigit_of_mem_digits d.digits_ne_nil hexponent.stops.1 hexponent.stops.2
    have hne : m.digits ≠ [] := by simp [Mantissa.digits, hwhole]
    obtain ⟨written, hwritten, htext⟩ := Mantissa.exists_isText_of_scan hscan hne
    have hletter : exponentText d.adjustedExponent ≠ [] := by simp [exponentText_eq]
    refine ⟨m, written, _, _, 0, htext, hwritten, hexponent, hdigits, ?_, by simp [hletter, hplain]⟩
    have hpos := d.length_digits_pos
    unfold adjustedExponent
    omega

/-- The sign that stands before a text. -/
theorem isSign_isNegative (d : Decimal) :
    IsSign (if d.isNegative then ['-'] else []) d.isNegative := by
  cases d.isNegative
  · exact .none
  · exact .minus

theorem toList_text (d : Decimal) :
    d.text.toList = (if d.isNegative then ['-'] else []) ++ d.unsignedText := by
  rw [text, String.toList_ofList]

theorem hasExponent_text_iff (d : Decimal) : HasExponent d.text ↔ d.isPlain = false := by
  obtain ⟨m, written, exponent, n, k, htext, hwritten, hexponent, -, -, hplain⟩ :=
    d.isText_unsignedText
  rw [← hplain]
  refine hasExponent_iff ?_ d.isSign_isNegative hwritten hexponent
  rw [d.toList_text, htext]

theorem exists_isText_text (d : Decimal) :
    ∃ p : Parts, p.IsText d.text ∧ p.negative = d.isNegative ∧
      p.mantissa.significant = d.digits ∧ p.scale = d.scale.value := by
  obtain ⟨m, written, exponent, n, k, htext, hwritten, hexponent, hdigits, hscale, -⟩ :=
    d.isText_unsignedText
  refine ⟨⟨d.isNegative, m, n⟩, ⟨_, written, exponent, ?_, d.isSign_isNegative, hwritten,
    hexponent⟩, rfl, significant_of_digits hdigits, hscale⟩
  rw [d.toList_text, htext]

/-- The sign, the digits and the scale make up a decimal. -/
theorem eq_of_digits (hnegative : d.isNegative = d'.isNegative) (hdigits : d.digits = d'.digits)
    (hscale : d.scale.value = d'.scale.value) : d = d' := by
  refine eq_iff_number.2 ⟨?_, hscale⟩
  rw [number, number, hnegative, hdigits, hscale]

theorem eq_of_text (h : d'.text = d.text) : d' = d := by
  obtain ⟨p, hp, hnegative, hdigits, hscale⟩ := d.exists_isText_text
  obtain ⟨p', hp', hnegative', hdigits', hscale'⟩ := d'.exists_isText_text
  rw [h] at hp'
  obtain rfl := hp.unique hp'
  exact eq_of_digits (hnegative'.symm.trans hnegative) (hdigits'.symm.trans hdigits)
    (hscale'.symm.trans hscale)

/-! ### Texts without an exponent -/

/-- Digits with `scale` of them after a point. At most five zeros are added after the point, and one
before it. -/
inductive IsPlain (digits : List Char) : Int → List Char → Prop
  | whole : IsPlain digits 0 digits
  | pointed {whole fraction} (hdigits : whole ++ fraction = digits) (hwhole : whole ≠ [])
      (hfraction : fraction ≠ []) : IsPlain digits fraction.length (whole ++ '.' :: fraction)
  | padded {k : Nat} (hk : k ≤ 5) :
      IsPlain digits (k + digits.length) ('0' :: '.' :: (List.replicate k '0' ++ digits))

theorem isPlain_plainDigits {scale : Nat} (h : scale ≤ digits.length + 5) :
    IsPlain digits scale (plainDigits digits scale) := by
  unfold plainDigits
  split
  · next hscale =>
    rw [hscale]
    exact .whole
  · next hscale =>
    split
    · next hlt =>
      have hlength : (digits.drop (digits.length - scale)).length = scale := by
        rw [List.length_drop]
        omega
      have hplain : IsPlain digits (digits.drop (digits.length - scale)).length _ :=
        .pointed (List.take_append_drop _ _) (List.ne_nil_of_length_pos ?_)
          (List.ne_nil_of_length_pos ?_)
      · rwa [hlength] at hplain
      · rw [List.length_take]
        omega
      · omega
    · next hle =>
      have hscale' : (scale : Int) = (scale - digits.length : Nat) + digits.length := by omega
      rw [hscale']
      exact .padded (by omega)

theorem isPlain_eq_false_iff (d : Decimal) :
    d.isPlain = false ↔ d.scale.value < 0 ∨ (d.digits.length : Int) - 1 - d.scale.value < -6 := by
  unfold isPlain adjustedExponent
  rw [Bool.and_eq_false_iff, decide_eq_false_iff_not, decide_eq_false_iff_not]
  omega

theorem isPlain_unsignedText (h : d.isPlain = true) :
    IsPlain d.digits d.scale.value d.unsignedText := by
  have hbounds : ¬(d.scale.value < 0 ∨ (d.digits.length : Int) - 1 - d.scale.value < -6) := by
    rw [← isPlain_eq_false_iff, h]
    decide
  have hscale : (d.scale.value.toNat : Int) = d.scale.value := Int.toNat_of_nonneg (by omega)
  rw [unsignedText, if_pos h]
  have hplain : IsPlain d.digits d.scale.value.toNat (plainDigits d.digits d.scale.value.toNat) :=
    isPlain_plainDigits (by omega)
  rwa [hscale] at hplain

/-- **Texts are exact.** The text of a decimal consists of its parts in one way, and these have the
sign, the digits and the scale of the number; so no other decimal has the text. It has an exponent
just where the scale is negative or the first digit comes after the sixth place. All other texts are
plain. -/
theorem text_unambiguous (d : Decimal) :
    (∃ p : Parts, p.IsText d.text ∧ (∀ q : Parts, q.IsText d.text → q = p) ∧
      p.negative = d.isNegative ∧ p.mantissa.significant = d.digits ∧ p.scale = d.scale.value) ∧
    (∀ d' : Decimal, d'.text = d.text → d' = d) ∧
    (HasExponent d.text ↔
      d.scale.value < 0 ∨ (d.digits.length : Int) - 1 - d.scale.value < -6) ∧
    (¬HasExponent d.text → ∃ unsigned, IsPlain d.digits d.scale.value unsigned ∧
      d.text.toList = (if d.isNegative then ['-'] else []) ++ unsigned) := by
  refine ⟨?_, fun d' => eq_of_text, ?_, fun h => ?_⟩
  · obtain ⟨p, hp, hparts⟩ := d.exists_isText_text
    exact ⟨p, hp, fun q hq => hq.unique hp, hparts⟩
  · rw [hasExponent_text_iff, isPlain_eq_false_iff]
  · rw [hasExponent_text_iff, Bool.not_eq_false] at h
    exact ⟨_, isPlain_unsignedText h, d.toList_text⟩

end Decimal
end Numeral

namespace Sample

open Numeral

/-- Five millionths below zero, with the most zeros that are written after a point. -/
def millionths : Decimal := ⟨-5, ⟨6, by decide, by decide⟩⟩

/-- The same number with one more digit. -/
def moreMillionths : Decimal := ⟨-50, ⟨7, by decide, by decide⟩⟩

end Sample

/-- One number with two scales has two texts, both without an exponent. -/
theorem Numeral.Decimal.text_unambiguous_sample :
    Sample.moreMillionths.text ≠ Sample.millionths.text ∧
    ¬HasExponent Sample.millionths.text ∧
    ∃ unsigned, IsPlain ['5'] 6 unsigned ∧
      Sample.millionths.text.toList = '-' :: unsigned := by
  obtain ⟨-, hinjective, -, hplain⟩ := text_unambiguous Sample.millionths
  have hnone : ¬HasExponent Sample.millionths.text := by decide
  have hother : Sample.moreMillionths ≠ Sample.millionths := by decide
  exact ⟨fun htext => hother (hinjective _ htext), hnone, hplain hnone⟩

end TypedRouting
