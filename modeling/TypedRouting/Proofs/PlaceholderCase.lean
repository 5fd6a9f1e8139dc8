import TypedRouting.Proofs.LetterCase
import TypedRouting.Proofs.Lowercase
import TypedRouting.Proofs.PlaceholderForms

/-!
# Placeholders and letter case

A segment is told to be a placeholder before it is put into lower case. The two steps could be
exchanged but for one character: `Placeholder.ofText?_lowercase_eq_none` says that literal text
stays literal in lower case, if the Kelvin sign is not in it.

* `Placeholder.Written.isAscii`: what is written as a placeholder is ASCII.
* `Placeholder.Form.of_lower`: what has a form in the lower case of ASCII had it before.
-/

namespace TypedRouting
namespace Placeholder

variable {cs low label : List Char} {array : Bool}

/-! ### Characters of a placeholder -/

theorem isAscii_of_isTokenChar {c : Char} (h : isTokenChar c = true) : c.toNat < 128 := by
  have hbelow : ∀ d : Char, c ≤ d → d.toNat < 128 → c.toNat < 128 :=
    fun _ hle hd => Nat.lt_of_le_of_lt hle hd
  rcases isTokenChar_iff.1 h with ⟨-, hle⟩ | ⟨-, hle⟩ | ⟨-, hle⟩
  · exact hbelow 'Z' hle (by decide)
  · exact hbelow 'z' hle (by decide)
  · exact hbelow '9' hle (by decide)

theorem isAscii_of_isLabelChar {c : Char} (h : isLabelChar c = true) : c.toNat < 128 := by
  rcases isLabelChar_iff.1 h with htoken | rfl | rfl
  · exact isAscii_of_isTokenChar htoken
  · decide
  · decide

theorem IsLabel.isAscii (h : IsLabel label) : ∀ c ∈ label, c.toNat < 128 :=
  fun c hc => isAscii_of_isLabelChar (h c hc)

theorem isAscii_blanks (n : Nat) : ∀ c ∈ blanks n, c.toNat < 128 := by
  intro c hc
  rw [List.eq_of_mem_replicate hc]
  decide

theorem Form.isAscii (h : Form array label cs) : ∀ c ∈ cs, c.toNat < 128 := by
  have hbrace : '}'.toNat < 128 := by decide
  have hdot : '.'.toNat < 128 := by decide
  have hclose : ∀ c ∈ ['}'], c.toNat < 128 := List.forall_mem_singleton.2 hbrace
  cases h with
  | bare => exact hclose
  | inner n hlabel _ =>
    simp only [List.forall_mem_append]
    exact ⟨isAscii_blanks _, hlabel.isAscii, hclose⟩
  | outer n hlabel _ =>
    simp only [List.forall_mem_append, List.forall_mem_cons]
    exact ⟨hbrace, isAscii_blanks _, hlabel.isAscii⟩
  | arrayInner m n hlabel =>
    simp only [List.forall_mem_append, List.forall_mem_cons]
    exact ⟨isAscii_blanks m, hdot, hdot, hdot, isAscii_blanks _, hlabel.isAscii, hbrace,
      List.forall_mem_nil _⟩
  | arrayOuter m n hlabel =>
    simp only [List.forall_mem_append, List.forall_mem_cons]
    exact ⟨isAscii_blanks m, hdot, hdot, hdot, hbrace, isAscii_blanks n, hlabel.isAscii⟩

theorem Written.isAscii {p : Placeholder} (h : p.Written cs) : ∀ c ∈ cs, c.toNat < 128 := by
  obtain ⟨token, label, rest, rfl, ⟨-, htoken⟩, hform, -, -⟩ := h
  refine List.forall_mem_cons.2 ⟨by decide, List.forall_mem_append.2 ⟨?_, hform.isAscii⟩⟩
  exact fun c hc => isAscii_of_isTokenChar (htoken c hc)

/-! ### Classes of characters -/

theorem toLower_of_not_isAlpha {c : Char} (hc : c.isAlpha = false) : c.toLower = c := by
  refine Char.toLower_eq_of_not_isUpper fun hupper => ?_
  simp [Char.isAlpha, hupper] at hc

/-- A character that is no letter stands for itself alone. -/
theorem toLower_eq_iff {c d : Char} (hd : d.isAlpha = false) : c.toLower = d ↔ c = d := by
  constructor
  · rintro rfl
    rw [Char.isAlpha_toLower_eq_isAlpha] at hd
    exact (toLower_of_not_isAlpha hd).symm
  · rintro rfl
    exact toLower_of_not_isAlpha hd

theorem isDigit_of_isAlpha {c : Char} (h : c.isAlpha = true) : c.isDigit = false := by
  simp [Char.isAlpha, Char.isUpper, Char.isLower, Char.isDigit, UInt32.le_iff_toNat_le] at h ⊢
  omega

theorem isDigit_toLower (c : Char) : c.toLower.isDigit = c.isDigit := by
  by_cases h : c.isAlpha = true
  · rw [isDigit_of_isAlpha h, isDigit_of_isAlpha ((Char.isAlpha_toLower_eq_isAlpha c).trans h)]
  · rw [toLower_of_not_isAlpha (by simpa using h)]

theorem isTokenChar_toLower (c : Char) : isTokenChar c.toLower = isTokenChar c := by
  simp [isTokenChar, Char.isAlphanum, isDigit_toLower]

theorem isLabelChar_toLower (c : Char) : isLabelChar c.toLower = isLabelChar c := by
  have hmark : ∀ d : Char, d.isAlpha = false → (c.toLower == d) = (c == d) := by
    intro d hd
    rw [Bool.eq_iff_iff, beq_iff_eq, beq_iff_eq, toLower_eq_iff hd]
  simp [isLabelChar, Char.isAlphanum, isDigit_toLower, hmark '_' (by decide), hmark '-' (by decide)]

/-! ### Forms in the lower case of ASCII -/

theorem cons_of_lower {d : Char} (hd : d.isAlpha = false) (h : cs.map Char.toLower = d :: low) :
    ∃ rest, cs = d :: rest ∧ rest.map Char.toLower = low := by
  obtain ⟨c, rest, rfl, hc, hrest⟩ := List.map_eq_cons_iff.1 h
  rw [toLower_eq_iff hd] at hc
  exact ⟨rest, by rw [hc], hrest⟩

theorem dots_of_lower (h : cs.map Char.toLower = '.' :: '.' :: '.' :: low) :
    ∃ rest, cs = '.' :: '.' :: '.' :: rest ∧ rest.map Char.toLower = low := by
  have hdot : '.'.isAlpha = false := by decide
  obtain ⟨_, rfl, hsecond⟩ := cons_of_lower hdot h
  obtain ⟨_, rfl, hthird⟩ := cons_of_lower hdot hsecond
  obtain ⟨rest, rfl, hrest⟩ := cons_of_lower hdot hthird
  exact ⟨rest, rfl, hrest⟩

theorem blanks_of_lower {n : Nat} (h : cs.map Char.toLower = blanks n ++ low) :
    ∃ rest, cs = blanks n ++ rest ∧ rest.map Char.toLower = low := by
  induction n generalizing cs with
  | zero => exact ⟨cs, rfl, h⟩
  | succ n ih =>
    obtain ⟨_, rfl, hblanks⟩ := cons_of_lower (d := ' ') (by decide) h
    obtain ⟨rest, rfl, hrest⟩ := ih hblanks
    exact ⟨rest, rfl, hrest⟩

theorem IsLabel.of_lower (h : IsLabel (cs.map Char.toLower)) : IsLabel cs := by
  intro c hc
  rw [← isLabelChar_toLower]
  exact h _ (List.mem_map_of_mem hc)

theorem enclosed_of_lower (h : cs.map Char.toLower = label ++ ['}']) (hlabel : IsLabel label) :
    ∃ own, cs = own ++ ['}'] ∧ IsLabel own ∧ own.map Char.toLower = label := by
  obtain ⟨own, brace, rfl, rfl, hbrace⟩ := List.map_eq_append_iff.1 h
  obtain ⟨_, rfl, hnil⟩ := cons_of_lower (by decide) hbrace
  obtain rfl := List.map_eq_nil_iff.1 hnil
  exact ⟨own, rfl, hlabel.of_lower, rfl⟩

theorem Form.of_lower (h : Form array label low) (hlow : cs.map Char.toLower = low) :
    ∃ own, Form array own cs := by
  have hbrace : '}'.isAlpha = false := by decide
  cases h with
  | bare =>
    obtain ⟨_, rfl, hnil⟩ := cons_of_lower hbrace hlow
    obtain rfl := List.map_eq_nil_iff.1 hnil
    exact ⟨[], .bare⟩
  | inner n hlabel hne =>
    obtain ⟨_, rfl, hrest⟩ := blanks_of_lower hlow
    obtain ⟨own, rfl, hown, rfl⟩ := enclosed_of_lower hrest hlabel
    exact ⟨own, .inner n hown (by simpa using hne)⟩
  | outer n hlabel hne =>
    obtain ⟨_, rfl, hrest⟩ := cons_of_lower hbrace hlow
    obtain ⟨own, rfl, rfl⟩ := blanks_of_lower hrest
    exact ⟨own, .outer n hlabel.of_lower (by simpa using hne)⟩
  | arrayInner m n hlabel =>
    obtain ⟨_, rfl, hdots⟩ := blanks_of_lower hlow
    obtain ⟨_, rfl, hinner⟩ := dots_of_lower hdots
    obtain ⟨_, rfl, hrest⟩ := blanks_of_lower hinner
    obtain ⟨own, rfl, hown, rfl⟩ := enclosed_of_lower hrest hlabel
    exact ⟨own, .arrayInner m n hown⟩
  | arrayOuter m n hlabel =>
    obtain ⟨_, rfl, hdots⟩ := blanks_of_lower hlow
    obtain ⟨_, rfl, houter⟩ := dots_of_lower hdots
    obtain ⟨_, rfl, hrest⟩ := cons_of_lower hbrace houter
    obtain ⟨own, rfl, rfl⟩ := blanks_of_lower hrest
    exact ⟨own, .arrayOuter m n hlabel.of_lower⟩

theorem Written.of_lower {p : Placeholder} (h : p.Written (cs.map Char.toLower)) :
    ∃ q : Placeholder, q.Written cs := by
  obtain ⟨token, label, rest, hcs, ⟨hne, htoken⟩, hform, -, -⟩ := h
  obtain ⟨body, rfl, hbody⟩ := cons_of_lower (by decide) hcs
  obtain ⟨own, after, rfl, rfl, hafter⟩ := List.map_eq_append_iff.1 hbody
  obtain ⟨name, hown⟩ := hform.of_lower hafter
  refine ⟨⟨String.ofList own, p.array, labelOf name⟩, own, name, after, rfl,
    ⟨by simpa using hne, ?_⟩, hown, rfl, rfl⟩
  intro c hc
  rw [← isTokenChar_toLower]
  exact htoken _ (List.mem_map_of_mem hc)

/-! ### Literal text -/

theorem ofText?_asciiLower_eq_none {segment : String} (h : ofText? segment = none) :
    ofText? (Text.asciiLower segment) = none := by
  rw [Option.eq_none_iff_forall_ne_some]
  intro p hp
  have hwritten : p.Written (segment.toList.map Char.toLower) := by
    rw [← Text.toList_asciiLower]
    exact ofChars?_eq_some_iff.1 hp
  obtain ⟨q, hq⟩ := hwritten.of_lower
  have hsome : ofText? segment = some q := ofChars?_eq_some_iff.2 hq
  rw [h] at hsome
  cases hsome

/-- Literal text is no placeholder in lower case either, if the Kelvin sign is not in it. -/
theorem ofText?_lowercase_eq_none {segment : String} (h : ofText? segment = none)
    (hkelvin : '\u212A' ∉ segment.toList) : ofText? (Text.lowercase segment) = none := by
  rw [Option.eq_none_iff_forall_ne_some]
  intro p hp
  -- a placeholder is ASCII, so the segment would be, and its lower case the one of ASCII
  have hascii : Text.isAscii (Text.lowercase segment) = true := by
    simpa [Text.isAscii] using (ofChars?_eq_some_iff.1 hp).isAscii
  rw [Text.lowercase_of_isAscii (Text.isAscii_of_lowercase hascii hkelvin),
    ofText?_asciiLower_eq_none h] at hp
  cases hp

end Placeholder
end TypedRouting
