import TypedRouting.Proofs.Binding
import TypedRouting.Proofs.DecimalLayout

/-!
# Texts of floats and of decimals

A float is read from the text of a number or from a word. The numbers have the grammar of decimals,
with exponents of any size, so the two kinds differ in the words and in the range of exponents.

* `FloatText.exists_read_iff`: which texts are read as a float, at every precision.
* `FloatText.isNotANumber_round_finite`: a number is not rounded to something that is not a number.
* `Decimal.isText_literal`: the literal of a decimal has the digits and the scale of the number.
* `ScalarType.accepts_binary_decimal`: which texts are floats and no decimals, and that a decimal is
  rounded to a number.
-/

namespace TypedRouting

theorem Text.spells_ofList_iff {cs : List Char} {word : String} :
    Text.spells (String.ofList cs) word = true ↔ cs.map Char.toLower = word.toList := by
  simp [Text.spells, String.ext_iff]

namespace Numeral

variable {sign digits cs exponent written : List Char} {negative : Bool} {text : String}
  {m : Mantissa}

theorem Mantissa.IsText.length_fraction_le (h : m.IsText written) :
    m.fraction.length ≤ written.length := by
  cases h with
  | bare hwhole hne => exact Nat.zero_le _
  | @pointed whole fraction hwhole hfraction hne =>
    show fraction.length ≤ _
    rw [List.length_append, List.length_cons]
    omega

/-! ### Whole numbers -/

theorem exists_denotes_iff (h : signed text.toList = (negative, digits)) :
    (∃ n, Denotes text n) ↔ digits ≠ [] ∧ ∀ c ∈ digits, c.isDigit = true := by
  constructor
  · rintro ⟨n, negative', digits', hsigned, hne, hdigits, -⟩
    cases h.symm.trans hsigned
    exact ⟨hne, hdigits⟩
  · rintro ⟨hne, hdigits⟩
    exact ⟨_, negative, digits, h, hne, hdigits, rfl⟩

namespace FloatText

/-! ### Numbers -/

theorem isSome_exponent?_iff : (exponent? cs).isSome ↔ ∃ n, IsExponent cs n := by
  cases cs with
  | nil => exact iff_of_true rfl ⟨0, .none⟩
  | cons c cs =>
    obtain ⟨negative, digits, hsigned⟩ : ∃ negative digits, signed cs = (negative, digits) :=
      ⟨_, _, rfl⟩
    have htext : signed (String.ofList cs).toList = (negative, digits) := by
      rwa [String.toList_ofList]
    have hdenotes := exists_denotes_iff htext
    simp only [isExponent_cons_iff, exists_and_left, hdenotes, exponent?, hsigned]
    by_cases hmarker : c = 'e' ∨ c = 'E' <;> simp [hmarker]

theorem isSome_number?_iff :
    (number? negative cs).isSome ↔ ∃ (m : Mantissa) (written exponent : List Char) (n : Int),
      cs = written ++ exponent ∧ m.IsText written ∧ IsExponent exponent n := by
  constructor
  · obtain ⟨m, rest, hscan⟩ : ∃ m rest, Mantissa.scan cs = (m, rest) := ⟨_, _, rfl⟩
    intro h
    simp only [number?, hscan] at h
    split at h
    · cases h
    · next hne =>
      rw [Option.isSome_map, isSome_exponent?_iff] at h
      obtain ⟨n, hn⟩ := h
      obtain ⟨written, hwritten, hcs⟩ := Mantissa.exists_isText_of_scan hscan hne
      exact ⟨m, written, rest, n, hcs, hwritten, hn⟩
  · rintro ⟨m, written, exponent, n, rfl, hwritten, hexponent⟩
    have hscan := hwritten.scan_append hexponent.stops.1 hexponent.stops.2
    simp only [number?, hscan, if_neg hwritten.digits_ne_nil, Option.isSome_map]
    exact isSome_exponent?_iff.2 ⟨n, hexponent⟩

/-- A number is finite. -/
theorem exists_finite_of_number? {x : FloatText} (h : number? negative cs = some x) :
    ∃ coefficient exponent, x = .finite negative coefficient exponent := by
  simp only [number?] at h
  split at h
  · cases h
  · obtain ⟨exponent, -, rfl⟩ := Option.map_eq_some_iff.1 h
    exact ⟨_, _, rfl⟩

/-! ### Words -/

/-- The words that are read as a float. -/
def words : List (List Char) := ["nan".toList, "inf".toList, "infinity".toList]

/-- One of the words, in any case of its letters, after a sign or none. -/
def IsWord (text : String) : Prop :=
  ∃ sign word negative, text.toList = sign ++ word ∧ IsSign sign negative ∧
    word.map Char.toLower ∈ words

theorem isSome_word?_iff : (word? negative cs).isSome ↔ cs.map Char.toLower ∈ words := by
  unfold word?
  simp only [Bool.or_eq_true, Text.spells_ofList_iff, words, List.mem_cons, List.not_mem_nil,
    or_false]
  split
  · next hnan => exact iff_of_true rfl (.inl hnan)
  · next hnan =>
    rw [or_iff_right hnan]
    split
    · next hinfinite => exact iff_of_true rfl hinfinite
    · next hinfinite => exact iff_of_false nofun hinfinite

/-- A word does not start with a sign. -/
theorem signed_of_mem_words (h : cs.map Char.toLower ∈ words) : signed cs = (false, cs) := by
  unfold signed
  split
  · simp [words] at h
  · simp [words] at h
  · rfl

/-! ### Whole texts -/

theorem read_eq_ok_iff {x : FloatText} (h : signed text.toList = (negative, cs)) :
    read text = .ok x ↔ (number? negative cs).or (word? negative cs) = some x := by
  unfold read
  split
  · next hnil =>
    rw [hnil] at h
    cases h
    exact iff_of_false nofun nofun
  · simp only [h]
    cases (number? negative cs).or (word? negative cs) <;> simp

theorem signed_of_isText (htext : text.toList = sign ++ (written ++ exponent))
    (hsign : IsSign sign negative) (hwritten : m.IsText written) :
    signed text.toList = (negative, written ++ exponent) := by
  rw [htext]
  exact hsign.signed_append hwritten.signed_append

/-- The texts of floats are those of numbers and the words. -/
theorem exists_read_iff :
    (∃ x, read text = .ok x) ↔ IsWord text ∨ ∃ p : Decimal.Parts, p.IsText text := by
  obtain ⟨negative, cs, hsigned⟩ : ∃ negative cs, signed text.toList = (negative, cs) :=
    ⟨_, _, rfl⟩
  have hread : (∃ x, read text = .ok x) ↔
      (number? negative cs).isSome ∨ (word? negative cs).isSome := by
    simp only [read_eq_ok_iff hsigned, ← Option.isSome_iff_exists, Option.isSome_or,
      Bool.or_eq_true]
  rw [hread, isSome_number?_iff, isSome_word?_iff]
  obtain ⟨sign, hsign, htext⟩ := exists_isSign_of_signed hsigned
  constructor
  · rintro (⟨m, written, exponent, n, rfl, hwritten, hexponent⟩ | hword)
    · exact .inr ⟨⟨negative, m, n⟩, sign, written, exponent, htext, hsign, hwritten, hexponent⟩
    · exact .inl ⟨sign, cs, negative, htext, hsign, hword⟩
  · rintro (⟨sign', word, negative', htext', hsign', hword⟩ |
      ⟨p, sign', written, exponent, htext', hsign', hwritten, hexponent⟩)
    · have hsigned' := hsign'.signed_append (signed_of_mem_words hword)
      rw [← htext', hsigned] at hsigned'
      cases hsigned'
      exact .inr hword
    · have hsigned' := signed_of_isText htext' hsign' hwritten
      rw [hsigned] at hsigned'
      cases hsigned'
      exact .inl ⟨_, written, exponent, _, rfl, hwritten, hexponent⟩

theorem exists_finite_of_isText {p : Decimal.Parts} (h : p.IsText text) :
    ∃ negative coefficient exponent, read text = .ok (.finite negative coefficient exponent) := by
  obtain ⟨sign, written, exponent, htext, hsign, hwritten, hexponent⟩ := h
  have hsigned := signed_of_isText htext hsign hwritten
  have hnumber : (number? p.negative (written ++ exponent)).isSome :=
    isSome_number?_iff.2 ⟨_, written, exponent, _, rfl, hwritten, hexponent⟩
  obtain ⟨x, hx⟩ := Option.isSome_iff_exists.1 hnumber
  obtain ⟨coefficient, e, rfl⟩ := exists_finite_of_number? hx
  refine ⟨p.negative, coefficient, e, (read_eq_ok_iff hsigned).2 ?_⟩
  rw [hx, Option.some_or]

/-! ### Rounding -/

theorem magnitudeOfDecimal_le (precision : Precision) (coefficient : Nat) (exponent : Int) :
    precision.magnitudeOfDecimal coefficient exponent ≤ precision.infinity := by
  unfold Precision.magnitudeOfDecimal
  dsimp only
  split
  · exact Nat.zero_le _
  · split
    · exact Nat.le_refl _
    · exact Nat.min_le_left _ _

theorem infinity_lt (precision : Precision) :
    precision.infinity < Nat.pow 2 (precision.width - 1) := by
  cases precision <;> decide

/-- No number is rounded beyond the bits of infinity. -/
theorem isNotANumber_round_finite (precision : Precision) (negative : Bool) (coefficient : Nat)
    (exponent : Int) :
    ((finite negative coefficient exponent).round precision).isNotANumber = false := by
  have hle := magnitudeOfDecimal_le precision coefficient exponent
  have hlt := infinity_lt precision
  have hdvd : Nat.pow 2 (precision.width - 1) ∣ Nat.pow 2 precision.width :=
    Nat.pow_dvd_pow 2 (Nat.sub_le _ _)
  have hbits : ((finite negative coefficient exponent).round precision).bits.toNat %
      Nat.pow 2 (precision.width - 1) = precision.magnitudeOfDecimal coefficient exponent := by
    show (_ % Nat.pow 2 precision.width) % Nat.pow 2 (precision.width - 1) = _
    rw [Nat.mod_mod_of_dvd _ hdvd]
    cases negative with
    | false => exact Nat.mod_eq_of_lt (Nat.lt_of_le_of_lt hle hlt)
    | true => exact (Nat.add_mod_right _ _).trans (Nat.mod_eq_of_lt (Nat.lt_of_le_of_lt hle hlt))
  rw [Binary.isNotANumber, hbits, decide_eq_false_iff_not]
  exact Nat.not_lt.2 hle

end FloatText

/-! ### The literal of a decimal -/

theorem toList_toString (n : Int) :
    (toString n).toList = (if n < 0 then ['-'] else []) ++ Nat.toDigits 10 n.natAbs := by
  cases n with
  | ofNat k => simp [Int.toString_eq_repr, Int.repr]
  | negSucc k => simp [Int.toString_eq_repr, Int.repr]

theorem isSign_minus (n : Int) : IsSign (if n < 0 then ['-'] else []) (n < 0) := by
  by_cases h : n < 0
  · simpa [h] using IsSign.minus
  · simpa [h] using IsSign.none

theorem isExponent_toString (n : Int) : IsExponent ('e' :: (toString n).toList) n := by
  have hdigits : ∀ c ∈ Nat.toDigits 10 n.natAbs, c.isDigit = true := fun c hc =>
    Nat.isDigit_of_mem_toDigits (by decide) (by decide) hc
  have hexponent := IsExponent.some (.inl rfl) (isSign_minus n) hdigits Nat.toDigits_ne_nil
  rw [Nat.ofDigitChars_ten_toDigits, withSign_natAbs] at hexponent
  rwa [toList_toString]

namespace Decimal

/-- The digits of a decimal after its sign, and the scale on the other side of zero after an `e`. -/
theorem toList_literal (d : Decimal) :
    d.literal.toList = (if d.isNegative then ['-'] else []) ++
      (d.digits ++ 'e' :: (toString (-d.scale.value)).toList) := by
  have hsign : (if d.isNegative then ['-'] else []) = if d.unscaled < 0 then ['-'] else [] := by
    simp [isNegative]
  rw [hsign, literal, String.toList_append, String.toList_append, toList_toString d.unscaled,
    List.append_assoc, List.append_assoc]
  rfl

theorem isText_literal (d : Decimal) :
    Parts.IsText ⟨d.isNegative, ⟨d.digits, []⟩, -d.scale.value⟩ d.literal :=
  ⟨_, d.digits, _, d.toList_literal, d.isSign_isNegative,
    .bare d.isDigit_of_mem_digits d.digits_ne_nil, isExponent_toString _⟩

/-- The nearest double of a decimal is read from its literal, and is a number. -/
theorem exists_read_literal (d : Decimal) :
    ∃ x : Binary .double, Binary.read .double d.literal = .ok x ∧ d.toDouble = x ∧
      x.isNotANumber = false := by
  obtain ⟨negative, coefficient, exponent, hread⟩ :=
    FloatText.exists_finite_of_isText d.isText_literal
  have hdouble : Binary.read .double d.literal =
      .ok ((FloatText.finite negative coefficient exponent).round .double) := by
    rw [Binary.read, hread]
    rfl
  refine ⟨_, hdouble, ?_, FloatText.isNotANumber_round_finite _ _ _ _⟩
  rw [toDouble, hdouble]

end Decimal
end Numeral

/-! ### Conversion -/

open Numeral

namespace ScalarType

variable {text : String}

theorem accepts_binary_iff {precision : Precision} :
    (ScalarType.binary precision).accepts text = true ↔
      FloatText.IsWord text ∨ ∃ p : Decimal.Parts, p.IsText text := by
  rw [accepts_iff, ← FloatText.exists_read_iff]
  constructor
  · rintro ⟨x, hx⟩
    obtain ⟨y, hy, -⟩ := Outcome.map_eq_ok.1 (Outcome.mapError_eq_ok.1 (convert_eq_ok_iff.1 hx))
    exact ⟨y, hy⟩
  · rintro ⟨y, hy⟩
    exact ⟨y.round precision, convert_eq_ok_iff.2
      (Outcome.mapError_eq_ok.2 (Outcome.map_eq_ok.2 ⟨y, hy, rfl⟩))⟩

theorem accepts_decimal_iff :
    ScalarType.decimal.accepts text = true ↔
      ∃ p : Decimal.Parts, p.IsText text ∧ Width.long.Has p.exponent ∧ Width.long.Has p.scale := by
  rw [accepts_iff, ← Decimal.exists_read_iff]
  exact exists_congr fun d => convert_decimal_eq_ok_iff

/-- Without an exponent, the scale is the number of digits after the point. -/
theorem scale_of_not_hasExponent {p : Decimal.Parts} (hp : p.IsText text)
    (h : ¬HasExponent text) : p.exponent = 0 ∧ 0 ≤ p.scale ∧ p.scale ≤ text.length := by
  obtain ⟨sign, written, exponent, htext, hsign, hwritten, hexponent⟩ := hp
  rw [hasExponent_iff htext hsign hwritten hexponent, ne_eq, not_not] at h
  subst h
  have hzero : p.exponent = 0 := hexponent.unique .none
  have hlength : p.mantissa.fraction.length ≤ text.length := by
    rw [← String.length_toList, htext]
    have hfraction := hwritten.length_fraction_le
    simp only [List.length_append]
    omega
  unfold Decimal.Parts.scale
  omega

/-- Only an exponent can take the number of a text that fits into memory out of the range. -/
theorem hasExponent_of_not_has {p : Decimal.Parts} (hp : p.IsText text)
    (hrange : ¬Width.long.Has p.exponent ∨ ¬Width.long.Has p.scale)
    (hlength : text.length < Width.long.limit) : HasExponent text := by
  by_contra hnone
  obtain ⟨hexponent, hlower, hupper⟩ := scale_of_not_hasExponent hp hnone
  have hlimit := Width.long.limit_pos
  rcases hrange with hrange | hrange
  · refine hrange ⟨?_, ?_⟩ <;> omega
  · refine hrange ⟨?_, ?_⟩ <;> omega

/-- **Floats and decimals.** Both precisions accept the words and the texts of numbers, and with
these every decimal. A text that is a float and no decimal is a word or has an exponent that leaves
the range, or takes the scale out of it. (Without an exponent it takes more digits than fit into
memory.) The literal of a decimal is read as a float, which is a number. -/
theorem accepts_binary_decimal (text : String) :
    (∀ precision, (ScalarType.binary precision).accepts text = true ↔
      FloatText.IsWord text ∨ ∃ p : Decimal.Parts, p.IsText text) ∧
    (ScalarType.binary .single).accepts text = (ScalarType.binary .double).accepts text ∧
    (ScalarType.decimal.accepts text = true →
      (ScalarType.binary .double).accepts text = true) ∧
    ((ScalarType.binary .double).accepts text = true → ScalarType.decimal.accepts text = false →
      FloatText.IsWord text ∨ ∃ p : Decimal.Parts, p.IsText text ∧
        (¬Width.long.Has p.exponent ∨ ¬Width.long.Has p.scale) ∧
        (text.length < Width.long.limit → HasExponent text)) ∧
    ∀ d : Decimal, Decimal.Parts.IsText ⟨d.isNegative, ⟨d.digits, []⟩, -d.scale.value⟩ d.literal ∧
      ∃ x : Binary .double, Binary.read .double d.literal = .ok x ∧ d.toDouble = x ∧
        x.isNotANumber = false := by
  refine ⟨fun precision => accepts_binary_iff, ?_, fun h => ?_, fun h hno => ?_, fun d => ?_⟩
  · rw [Bool.eq_iff_iff, accepts_binary_iff, accepts_binary_iff]
  · obtain ⟨p, hp, -⟩ := accepts_decimal_iff.1 h
    exact accepts_binary_iff.2 (.inr ⟨p, hp⟩)
  · refine (accepts_binary_iff.1 h).imp_right ?_
    rintro ⟨p, hp⟩
    have hrange : ¬Width.long.Has p.exponent ∨ ¬Width.long.Has p.scale := by
      rw [← not_and_or]
      intro hhas
      rw [accepts_decimal_iff.2 ⟨p, hp, hhas⟩] at hno
      cases hno
    exact ⟨p, hp, hrange, hasExponent_of_not_has hp hrange⟩
  · exact ⟨d.isText_literal, d.exists_read_literal⟩

/-- An exponent in the range, with a scale that is not. -/
theorem accepts_binary_decimal_sample :
    (ScalarType.binary .double).accepts "1.5e-9223372036854775807" = true ∧
    ScalarType.decimal.accepts "1.5e-9223372036854775807" = false ∧
    (FloatText.IsWord "1.5e-9223372036854775807" ∨
      ∃ p : Decimal.Parts, p.IsText "1.5e-9223372036854775807" ∧
        (¬Width.long.Has p.exponent ∨ ¬Width.long.Has p.scale) ∧
        ("1.5e-9223372036854775807".length < Width.long.limit →
          HasExponent "1.5e-9223372036854775807")) ∧
    ScalarType.decimal.accepts "1.5e-9223372036854775806" = true ∧
    (ScalarType.binary .double).accepts "1.5e-9223372036854775806" = true := by
  obtain ⟨-, -, -, houtside, -⟩ := accepts_binary_decimal "1.5e-9223372036854775807"
  obtain ⟨-, -, hinside, -⟩ := accepts_binary_decimal "1.5e-9223372036854775806"
  have hfloat : (ScalarType.binary .double).accepts "1.5e-9223372036854775807" = true := by decide
  have hrefused : ScalarType.decimal.accepts "1.5e-9223372036854775807" = false := by decide
  have hdecimal : ScalarType.decimal.accepts "1.5e-9223372036854775806" = true := by decide
  exact ⟨hfloat, hrefused, houtside hfloat hrefused, hdecimal, hinside hdecimal⟩

end ScalarType
end TypedRouting
