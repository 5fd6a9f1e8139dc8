import Mathlib.Data.List.Forall2
import TypedRouting.Pattern.Declaration
import TypedRouting.Pattern.Score

/-!
# Letter case of literals

* `Text.bytesLowerTo_iff`: the bytes of an ASCII text come to those of its lower case, and to no
  others.
* `Text.lowersTo_iff`: the short cut for ASCII texts gives the same answer as the full mapping.
* `literalMatches_iff`: a literal matches a segment just where the segment, folded as declared
  literals are, is that literal.
-/

namespace TypedRouting

namespace Text

theorem lowerSimple_ascii : ∀ n < 128, lowerSimple (Char.ofNat n) = (Char.ofNat n).toLower := by
  decide

theorem lowerChar_of_ascii {c : Char} (h : c.toNat < 128) : lowerChar c = [c.toLower] := by
  have hsimple := lowerSimple_ascii c.toNat h
  rw [Char.ofNat_toNat] at hsimple
  have hc : c ≠ 'İ' := by
    rintro rfl
    exact absurd h (by decide)
  rw [lowerChar, if_neg hc, hsimple]

theorem lowerAfter_of_ascii {cs : List Char} (h : ∀ c ∈ cs, c.toNat < 128) (before : List Char) :
    lowerAfter before cs = cs.map Char.toLower := by
  induction cs generalizing before with
  | nil => rfl
  | cons c rest ih =>
    have hc : c ≠ 'Σ' := by
      rintro rfl
      exact absurd (h 'Σ' (by simp)) (by decide)
    have hrest := ih (fun d hd => h d (List.mem_cons_of_mem _ hd)) (c :: before)
    rw [lowerAfter, if_neg hc, lowerChar_of_ascii (h c (by simp)), hrest]
    rfl

theorem lowercase_of_isAscii {text : String} (h : isAscii text = true) :
    lowercase text = asciiLower text := by
  have hall : ∀ c ∈ text.toList, c.toNat < 128 := by simpa [isAscii] using h
  rw [lowercase, asciiLower, lowerAfter_of_ascii hall]

/-! ### Bytes -/

section Bytes

variable {text lowered : String}

/-- A text is known by its bytes. -/
theorem bytes_inj : bytes text = bytes lowered ↔ text = lowered := by
  unfold bytes
  rw [← String.toByteArray_inj, ByteArray.ext_iff, Array.toList_inj]

theorem bytes_eq_flatMap (text : String) :
    bytes text = text.toList.flatMap String.utf8EncodeChar := by
  unfold bytes
  rw [← String.utf8Encode_toList, List.utf8Encode, List.toList_data_toByteArray]

/-- An ASCII character is one byte, its code point. -/
theorem bytes_of_ascii (h : ∀ c ∈ text.toList, c.toNat < 128) :
    bytes text = text.toList.map fun c => UInt8.ofNat c.toNat := by
  rw [bytes_eq_flatMap, List.map_eq_flatMap]
  apply List.flatMap_congr
  intro c hc
  have hbyte : c.val.toNat ≤ 127 := Nat.le_of_lt_succ (h c hc)
  exact if_pos hbyte

theorem toLower_ofNat_ascii : ∀ n < 128, (Char.ofNat n).toLower.toNat < 128 ∧
    (UInt8.ofNat n).toAsciiLower = UInt8.ofNat (Char.ofNat n).toLower.toNat := by
  decide

theorem toLower_ascii {c : Char} (h : c.toNat < 128) : c.toLower.toNat < 128 ∧
    (UInt8.ofNat c.toNat).toAsciiLower = UInt8.ofNat c.toLower.toNat := by
  have hlower := toLower_ofNat_ascii c.toNat h
  rwa [Char.ofNat_toNat] at hlower

theorem bytes_asciiLower (h : ∀ c ∈ text.toList, c.toNat < 128) :
    bytes (asciiLower text) = (bytes text).map UInt8.toAsciiLower := by
  have hlower : ∀ c ∈ (asciiLower text).toList, c.toNat < 128 := by
    intro c hc
    rw [toList_asciiLower] at hc
    obtain ⟨d, hd, rfl⟩ := List.mem_map.1 hc
    exact (toLower_ascii (h d hd)).1
  rw [bytes_of_ascii hlower, bytes_of_ascii h, toList_asciiLower, List.map_map, List.map_map]
  apply List.map_congr_left
  intro c hc
  exact (toLower_ascii (h c hc)).2.symm

/-- The bytes of an ASCII text come to those of its lower case, and to no others. -/
theorem bytesLowerTo_iff (h : isAscii text = true) :
    bytesLowerTo text lowered = true ↔ asciiLower text = lowered := by
  have hall : ∀ c ∈ text.toList, c.toNat < 128 := by simpa [isAscii] using h
  have hrow : bytesLowerTo text lowered = true ↔
      List.Forall₂ (fun l b => l = UInt8.toAsciiLower b) (bytes lowered) (bytes text) := by
    simp [bytesLowerTo, List.forall₂_iff_zip]
  rw [hrow, ← List.forall₂_map_right_iff, List.forall₂_eq_eq_eq, ← bytes_asciiLower hall, bytes_inj]
  exact eq_comm

end Bytes

theorem lowersTo_iff {text lowered : String} :
    lowersTo text lowered = true ↔ lowercase text = lowered := by
  unfold lowersTo
  by_cases h : isAscii text = true
  · rw [if_pos h, bytesLowerTo_iff h, lowercase_of_isAscii h]
  · simp [h]

end Text

theorem literalMatches_iff {options : DeclarationOptions} {literal value : String} :
    literalMatches options.caseSensitive literal value = true ↔
      literal = options.literal value := by
  cases h : options.caseSensitive with
  | true => simp [literalMatches, DeclarationOptions.literal, h]
  | false =>
    have hfold : options.literal value = Text.lowercase value := by
      simp [DeclarationOptions.literal, h]
    have hmatch : literalMatches false literal value = Text.lowersTo value literal := rfl
    rw [hfold, hmatch, Text.lowersTo_iff]
    exact eq_comm

end TypedRouting
