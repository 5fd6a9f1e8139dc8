import Mathlib
import TypedRouting.Text.Lowercase

/-!
# Texts in lower case

* `Text.lowercase_lowercase`: a text in lower case is its own lower case.
* `Text.slash_not_mem_lowercase` and `Text.lowercase_ne_empty`: a segment of a path stays one.
* `Text.isAscii_of_lowercase`: only the Kelvin sign, whose lower case is `k`, comes to ASCII from
  outside it.

The first and the last rest on checks of the table of runs: no code point that a run yields is
covered by a run.
-/

namespace TypedRouting
namespace Text

/-! ### What the runs yield -/

namespace CaseRun

/-- The lower case of the first code point of the run. -/
def low (r : CaseRun) : Nat := (r.first + r.shift).toNat

/-- The lower case of the last code point of the run. -/
def high (r : CaseRun) : Nat := (r.last + r.shift).toNat

/-- All code points that the run covers have one parity. -/
def isStepped (r : CaseRun) : Bool := r.stride == 2 || r.first == r.last

theorem covers_iff {r : CaseRun} {n : Nat} :
    r.covers n = true ↔ (r.first ≤ n ∧ n ≤ r.last) ∧ (n - r.first) % r.stride = 0 := by
  simp [covers]

end CaseRun

/-- No code point from `low` to `high` is covered by the first run that ends at it or later. Where
`stepped` is set this is asked of those of the parity of `low` only. -/
def isClear (low high : Nat) (stepped : Bool) : List CaseRun → Bool
  | [] => true
  | s :: runs =>
    bif s.last.blt low then isClear low high stepped runs
    else bif high.blt s.first then s.first.ble s.last
    else stepped && s.stride == 2 && (low + s.first) % 2 == 1 && isClear low high stepped runs

theorem isClear_cons_iff {low high : Nat} {stepped : Bool} {s : CaseRun} {runs : List CaseRun} :
    isClear low high stepped (s :: runs) = true ↔
      if s.last < low then isClear low high stepped runs = true
      else if high < s.first then s.first ≤ s.last
      else stepped = true ∧ s.stride = 2 ∧ (low + s.first) % 2 = 1 ∧
        isClear low high stepped runs = true := by
  rw [isClear]
  by_cases hbelow : s.last < low
  · simp [hbelow, Nat.blt_eq]
  · by_cases hgap : high < s.first
    · simp [hbelow, hgap]
    · simp [hbelow, hgap, and_assoc]

theorem runOf?_cons (s : CaseRun) (runs : List CaseRun) (n : Nat) :
    runOf? (s :: runs) n =
      if n ≤ s.last then (if s.covers n then some s else none) else runOf? runs n := by
  by_cases h : n ≤ s.last
  · simp [runOf?, h, Option.filter]
  · simp [runOf?, h]

theorem runOf?_eq_none_of_isClear {low high : Nat} {stepped : Bool} {runs : List CaseRun}
    (h : isClear low high stepped runs = true) {n : Nat} (hlow : low ≤ n) (hhigh : n ≤ high)
    (hparity : stepped = true → n % 2 = low % 2) : runOf? runs n = none := by
  induction runs with
  | nil => rfl
  | cons s runs ih =>
    rw [runOf?_cons]
    rw [isClear_cons_iff] at h
    split at h
    · next hbelow =>
      rw [if_neg (by omega)]
      exact ih h
    · split at h
      · next hgap =>
        have hcovers : s.covers n = false := by
          simp [CaseRun.covers]
          omega
        rw [if_pos (by omega), hcovers]
        rfl
      · obtain ⟨hstepped, hstride, hodd, hrest⟩ := h
        have hn := hparity hstepped
        -- the run passes over every other code point, and `n` is one of those
        have hcovers : s.covers n = false := by
          simp [CaseRun.covers, hstride]
          omega
        rw [hcovers, ih hrest]
        simp

theorem mem_of_runOf? {runs : List CaseRun} {n : Nat} {r : CaseRun} (h : runOf? runs n = some r) :
    r ∈ runs ∧ r.covers n = true := by
  obtain ⟨hfind, hcovers⟩ := Option.filter_eq_some_iff.1 h
  exact ⟨List.mem_of_find?_eq_some hfind, hcovers⟩

/-! ### Checks of the table -/

/-- The lower case of a run lies in the alphabet, beyond the marks of ASCII, and apart from the two
characters with a rule of their own. -/
theorem bounds_lowerRuns : ∀ r ∈ lowerRuns, 96 < r.first + r.shift ∧
    (r.last + r.shift < 0xD800 ∨ 0xDFFF < r.first + r.shift ∧ r.last + r.shift < 0x110000) ∧
    (r.high < 'İ'.toNat ∨ 'İ'.toNat < r.low) := by
  decide +kernel

theorem isClear_lowerRuns : ∀ r ∈ lowerRuns, isClear r.low r.high r.isStepped lowerRuns = true := by
  decide +kernel

/-- The Kelvin sign is a run of its own, and the only one that leads to ASCII from outside. -/
theorem ascii_lowerRuns : ∀ r ∈ lowerRuns,
    r.last < 128 ∨ 128 ≤ r.first + r.shift ∨
      r.first = '\u212A'.toNat ∧ r.last = '\u212A'.toNat := by
  decide +kernel

/-! ### Characters -/

/-- A character has no lower case other than itself, or a run gives it one. -/
theorem lowerSimple_cases (c : Char) :
    runOf? lowerRuns c.toNat = none ∧ lowerSimple c = c ∨
      ∃ r ∈ lowerRuns, r.covers c.toNat = true ∧
        (lowerSimple c).toNat = (c.toNat + r.shift).toNat := by
  unfold lowerSimple
  cases hrun : runOf? lowerRuns c.toNat with
  | none => exact .inl ⟨rfl, rfl⟩
  | some r =>
    obtain ⟨hr, hcovers⟩ := mem_of_runOf? hrun
    obtain ⟨hlow, hvalid, -⟩ := bounds_lowerRuns r hr
    have hrange := (CaseRun.covers_iff.1 hcovers).1
    have hchar : (c.toNat + r.shift).toNat.isValidChar := by
      unfold Nat.isValidChar
      omega
    exact .inr ⟨r, hr, hcovers, by rw [Char.toNat_ofNat, if_pos hchar]⟩

/-- What a run yields lies between its ends, and it is covered by no run. -/
theorem runOf?_of_covers {r : CaseRun} (hr : r ∈ lowerRuns) {n : Nat}
    (hcovers : r.covers n = true) :
    r.low ≤ (n + r.shift).toNat ∧ (n + r.shift).toNat ≤ r.high ∧
      runOf? lowerRuns (n + r.shift).toNat = none := by
  obtain ⟨hpos, -, -⟩ := bounds_lowerRuns r hr
  obtain ⟨⟨hfirst, hlast⟩, hstride⟩ := CaseRun.covers_iff.1 hcovers
  have hlow : r.low ≤ (n + r.shift).toNat := by
    unfold CaseRun.low
    omega
  have hhigh : (n + r.shift).toNat ≤ r.high := by
    unfold CaseRun.high
    omega
  refine ⟨hlow, hhigh, runOf?_eq_none_of_isClear (isClear_lowerRuns r hr) hlow hhigh ?_⟩
  intro hstepped
  simp only [CaseRun.isStepped, Bool.or_eq_true, beq_iff_eq] at hstepped
  unfold CaseRun.low
  rcases hstepped with htwo | hone
  · rw [htwo] at hstride
    omega
  · omega

/-- The character is its own lower case, wherever it stands. -/
def IsLower (c : Char) : Prop := c ≠ 'Σ' ∧ lowerChar c = [c]

theorem isLower_of_runOf? {c : Char} (hrun : runOf? lowerRuns c.toNat = none) (hdot : c ≠ 'İ') :
    IsLower c := by
  have hsigma : runOf? lowerRuns 'Σ'.toNat ≠ none := by decide +kernel
  refine ⟨?_, by simp [lowerChar, hdot, lowerSimple, hrun]⟩
  rintro rfl
  exact hsigma hrun

theorem isLower_lowerSimple {c : Char} (hdot : c ≠ 'İ') : IsLower (lowerSimple c) := by
  rcases lowerSimple_cases c with ⟨hrun, hself⟩ | ⟨r, hr, hcovers, hmoved⟩
  · rw [hself]
    exact isLower_of_runOf? hrun hdot
  · obtain ⟨hlow, hhigh, hclear⟩ := runOf?_of_covers hr hcovers
    obtain ⟨-, -, hapart⟩ := bounds_lowerRuns r hr
    rw [← hmoved] at hlow hhigh hclear
    refine isLower_of_runOf? hclear fun heq => ?_
    rw [heq] at hlow hhigh
    omega

/-- A character that a run moves goes to one beyond the marks of ASCII. -/
theorem lowerSimple_eq_slash_iff {c : Char} : lowerSimple c = '/' ↔ c = '/' := by
  constructor
  · intro h
    rcases lowerSimple_cases c with ⟨-, hself⟩ | ⟨r, hr, hcovers, hmoved⟩
    · rwa [hself] at h
    · obtain ⟨hpos, -, -⟩ := bounds_lowerRuns r hr
      obtain ⟨hlow, -, -⟩ := runOf?_of_covers hr hcovers
      have hslash : '/'.toNat = 47 := rfl
      rw [← hmoved, h, hslash] at hlow
      unfold CaseRun.low at hlow
      omega
  · rintro rfl
    decide

theorem toNat_lowerSimple_lt {c : Char} (h : (lowerSimple c).toNat < 128) :
    c.toNat < 128 ∨ c = '\u212A' := by
  rcases lowerSimple_cases c with ⟨-, hself⟩ | ⟨r, hr, hcovers, hmoved⟩
  · rw [hself] at h
    exact .inl h
  · obtain ⟨hlow, -, -⟩ := runOf?_of_covers hr hcovers
    have hrange := (CaseRun.covers_iff.1 hcovers).1
    rw [← hmoved] at hlow
    unfold CaseRun.low at hlow
    rcases ascii_lowerRuns r hr with hascii | hbeyond | ⟨hfirst, hlast⟩
    · exact .inl (by omega)
    · omega
    · refine .inr ?_
      have heq : c.toNat = '\u212A'.toNat := by omega
      rw [← Char.ofNat_toNat c, heq]
      decide

/-! ### Texts -/

/-- The characters that may stand for a character in lower case. -/
def lowerForms (c : Char) : List Char :=
  if c = 'Σ' then ['ς', 'σ'] else lowerChar c

theorem isLower_of_mem_lowerForms {c d : Char} (h : c ∈ lowerForms d) : IsLower c := by
  unfold lowerForms lowerChar at h
  split at h
  · obtain rfl | rfl : c = 'ς' ∨ c = 'σ' := by simpa using h
    · exact isLower_of_runOf? (by decide +kernel) (by decide)
    · exact isLower_of_runOf? (by decide +kernel) (by decide)
  · split at h
    · obtain rfl | rfl : c = 'i' ∨ c = '\u0307' := by simpa using h
      · exact isLower_of_runOf? (by decide +kernel) (by decide)
      · exact isLower_of_runOf? (by decide +kernel) (by decide)
    · next hdot =>
      rw [List.mem_singleton.1 h]
      exact isLower_lowerSimple hdot

theorem eq_slash_of_mem_lowerForms {d : Char} (h : '/' ∈ lowerForms d) : d = '/' := by
  unfold lowerForms lowerChar at h
  split at h
  · exact absurd h (by decide)
  · split at h
    · exact absurd h (by decide)
    · exact lowerSimple_eq_slash_iff.1 (List.mem_singleton.1 h).symm

theorem mem_lowerAfter {c : Char} {before cs : List Char} (h : c ∈ lowerAfter before cs) :
    ∃ d ∈ cs, c ∈ lowerForms d := by
  induction cs generalizing before with
  | nil => simp [lowerAfter] at h
  | cons d rest ih =>
    rw [lowerAfter] at h
    rcases List.mem_append.1 h with hhead | hrest
    · refine ⟨d, List.mem_cons_self, ?_⟩
      unfold lowerForms
      split at hhead
      · next hsigma =>
        rw [if_pos hsigma, List.mem_singleton.1 hhead]
        split <;> simp
      · next hother => rwa [if_neg hother]
    · obtain ⟨e, he, hc⟩ := ih hrest
      exact ⟨e, List.mem_cons_of_mem _ he, hc⟩

theorem lowerAfter_of_isLower {cs : List Char} (h : ∀ c ∈ cs, IsLower c) (before : List Char) :
    lowerAfter before cs = cs := by
  induction cs generalizing before with
  | nil => rfl
  | cons c rest ih =>
    obtain ⟨⟨hsigma, hself⟩, hrest⟩ := List.forall_mem_cons.1 h
    rw [lowerAfter, if_neg hsigma, hself, ih hrest]
    rfl

/-- A character beyond ASCII leaves one beyond ASCII behind, unless it is the Kelvin sign. -/
theorem ascii_of_lowerAfter {before cs : List Char}
    (h : ∀ c ∈ lowerAfter before cs, c.toNat < 128) :
    ∀ d ∈ cs, d.toNat < 128 ∨ d = '\u212A' := by
  induction cs generalizing before with
  | nil => simp
  | cons d rest ih =>
    rw [lowerAfter] at h
    obtain ⟨hhead, hrest⟩ := List.forall_mem_append.1 h
    refine List.forall_mem_cons.2 ⟨?_, ih hrest⟩
    split at hhead
    · have hsigma := hhead _ (List.mem_singleton_self _)
      split at hsigma <;> exact absurd hsigma (by decide)
    · unfold lowerChar at hhead
      split at hhead
      · exact absurd (hhead '\u0307' (by simp)) (by decide)
      · exact toNat_lowerSimple_lt (hhead _ (List.mem_singleton_self _))

/-- Lower case is a normal form. -/
theorem lowercase_lowercase (text : String) : lowercase (lowercase text) = lowercase text := by
  have hlower : ∀ c ∈ lowerAfter [] text.toList, IsLower c := by
    intro c hc
    obtain ⟨d, -, hd⟩ := mem_lowerAfter hc
    exact isLower_of_mem_lowerForms hd
  simp [lowercase, lowerAfter_of_isLower hlower]

theorem slash_not_mem_lowercase {text : String} (h : '/' ∉ text.toList) :
    '/' ∉ (lowercase text).toList := by
  intro hslash
  rw [lowercase, String.toList_ofList] at hslash
  obtain ⟨d, hd, hform⟩ := mem_lowerAfter hslash
  rw [eq_slash_of_mem_lowerForms hform] at hd
  exact h hd

theorem lowercase_ne_empty {text : String} (h : text ≠ "") : lowercase text ≠ "" := by
  intro hlower
  have hnil : lowerAfter [] text.toList = [] := by
    simpa [lowercase] using congrArg String.toList hlower
  cases hcs : text.toList with
  | nil => exact h (String.toList_eq_nil_iff.1 hcs)
  | cons c rest =>
    rw [hcs, lowerAfter] at hnil
    have hhead := (List.append_eq_nil_iff.1 hnil).1
    split at hhead
    · cases hhead
    · unfold lowerChar at hhead
      split at hhead <;> cases hhead

/-- A text whose lower case is ASCII is ASCII itself, the Kelvin sign apart. -/
theorem isAscii_of_lowercase {text : String} (h : isAscii (lowercase text) = true)
    (hkelvin : '\u212A' ∉ text.toList) : isAscii text = true := by
  simp only [isAscii, lowercase, String.toList_ofList, List.all_eq_true, decide_eq_true_eq] at h ⊢
  intro c hc
  rcases ascii_of_lowerAfter h c hc with hascii | rfl
  · exact hascii
  · exact absurd hc hkelvin

end Text
end TypedRouting
