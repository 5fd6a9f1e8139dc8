import Mathlib.Algebra.BigOperators.Group.Finset.Basic
import TypedRouting.Proofs.ScoreBound

/-!
# Scores as sums of grades

A fixed segment has a grade for the segment of a request at its place: three points for a literal
that is repeated, two or one for a placeholder whose type converts it, none otherwise.

* `fixedCredit?_eq_some_iff`: the points of a row of fixed segments are the sum of their grades, and
  in the strict mode none of them is zero.
* `Pattern.scoreSegments_eq_of_pos`: in either mode, a score that is not zero is one point, the
  grades, and the points of the tail.
* `Pattern.score_lenient`: the score of the lenient mode for every request.
-/

namespace TypedRouting

/-! ### Fixed segments -/

/-- The grade of a fixed segment for a segment of a request. -/
def Segment.grade (caseSensitive : Bool) : Segment → String → Nat
  | .literal text, v => if literalMatches caseSensitive text v then 3 else 0
  | .placeholder t _, v => if t.accepts v then if t.isFractional then 1 else 2 else 0

/-- The grade at place `i`, where both the pattern and the request have a segment there. -/
def gradeAt (caseSensitive : Bool) (ss : List Segment) (request : List String) (i : Nat) : Nat :=
  match ss[i]?, request[i]? with
  | some s, some v => s.grade caseSensitive v
  | _, _ => 0

section Rows

variable {caseSensitive : Bool} {s : Segment} {ss : List Segment} {v : String} {vs : List String}
  {options : ScoreOptions}

theorem Segment.credit?_eq :
    s.credit? caseSensitive v =
      if s.grade caseSensitive v = 0 then none else some (s.grade caseSensitive v) := by
  cases s with
  | literal text =>
    by_cases h : literalMatches caseSensitive text v = true <;> simp [credit?, grade, literalScore, h]
  | placeholder t wording =>
    by_cases h : t.accepts v = true <;> by_cases ht : t.isFractional = true <;>
      simp [credit?, grade, convertibleScore, ScalarType.bonus, h, ht]

theorem Segment.getD_credit? : (s.credit? caseSensitive v).getD 0 = s.grade caseSensitive v := by
  rw [credit?_eq]
  split
  · next h => exact h.symm
  · rfl

theorem Segment.isSome_credit?_iff :
    (s.credit? caseSensitive v).isSome ↔ 0 < s.grade caseSensitive v := by
  rw [credit?_eq, Nat.pos_iff_ne_zero]
  split
  · next h => simp [h]
  · next h => simp [h]

theorem gradeAt_cons_zero : gradeAt caseSensitive (s :: ss) (v :: vs) 0 = s.grade caseSensitive v :=
  rfl

theorem gradeAt_cons_succ (i : Nat) :
    gradeAt caseSensitive (s :: ss) (v :: vs) (i + 1) = gradeAt caseSensitive ss vs i := rfl

theorem gradeAt_of_length_le {i : Nat} (h : ss.length ≤ i) : gradeAt caseSensitive ss vs i = 0 := by
  simp [gradeAt, List.getElem?_eq_none h]

theorem fixedCredit?_eq_some_iff {c : Nat} :
    fixedCredit? options ss vs = some c ↔
      (options.mode = .strict →
        ∀ i < min ss.length vs.length, 0 < gradeAt options.caseSensitive ss vs i) ∧
      ∑ i ∈ Finset.range vs.length, gradeAt options.caseSensitive ss vs i = c := by
  induction ss generalizing vs c with
  | nil => simp [fixedCredit?, gradeAt]
  | cons s ss ih =>
    cases vs with
    | nil => simp [fixedCredit?]
    | cons v vs =>
      rw [fixedCredit?_cons_eq_some, Segment.getD_credit?, Segment.isSome_credit?_iff,
        List.length_cons, List.length_cons, Nat.add_min_add_right, Finset.sum_range_succ']
      simp only [ih, Nat.forall_lt_succ_left, gradeAt_cons_zero, gradeAt_cons_succ]
      constructor
      · rintro ⟨hgrade, rest, ⟨hgrades, rfl⟩, rfl⟩
        exact ⟨fun hmode => ⟨hgrade hmode, hgrades hmode⟩, Nat.add_comm _ _⟩
      · rintro ⟨hgrades, rfl⟩
        refine ⟨fun hmode => (hgrades hmode).1, _, ⟨fun hmode => (hgrades hmode).2, rfl⟩, ?_⟩
        exact Nat.add_comm _ _

end Rows

/-! ### The tail -/

theorem Tail.credit?_eq_none_iff {tail : Tail} {items : List String} :
    tail.credit? items = none ↔ ∃ v ∈ items, tail.element.accepts v = false := by
  unfold credit?
  split
  · next hempty =>
    obtain rfl : items = [] := by simpa using hempty
    simp
  · split
    · next hall => simpa using hall
    · next hall => simpa using hall

namespace Pattern

variable {p : Pattern} {request : List String} {options : ScoreOptions}

/-- The points of the tail for a request of `count` segments: one for each segment that is left to
it, and one more if its type has no fractions. Where none is left there are no points. -/
def tailGrade (p : Pattern) (count : Nat) : Nat :=
  match p.tail with
  | none => 0
  | some tail =>
    if p.texts.length ≤ count then
      count - p.texts.length + 1 + if tail.element.isFractional then 0 else 1
    else 0

theorem length_texts_of_no_tail (h : p.tail = none) : p.texts.length = p.fixed.length := by
  simp [texts, h]

theorem length_texts_of_tail {tail : Tail} (h : p.tail = some tail) :
    p.texts.length = p.fixed.length + 1 := by
  simp [texts, h]

theorem tailGrade_of_no_tail (h : p.tail = none) (count : Nat) : p.tailGrade count = 0 := by
  simp [tailGrade, h]

theorem tailGrade_of_length_le {count : Nat} (h : count ≤ p.fixed.length) :
    p.tailGrade count = 0 := by
  unfold tailGrade
  split
  · rfl
  · next tail htail =>
    rw [if_neg]
    rw [length_texts_of_tail htail]
    omega

theorem tailGrade_of_lt_length {tail : Tail} {count : Nat} (htail : p.tail = some tail)
    (h : p.fixed.length < count) :
    p.tailGrade count = count - p.fixed.length + tail.element.bonus := by
  have hlength := length_texts_of_tail htail
  have hle : p.texts.length ≤ count := by omega
  simp only [tailGrade, htail, if_pos hle, ScalarType.bonus]
  omega

theorem tailCredit?_eq_some {c : Nat} (h : p.tailCredit? request = some c) :
    c = p.tailGrade request.length := by
  unfold tailCredit? at h
  split at h
  · next htail =>
    rw [tailGrade_of_no_tail htail]
    exact (Option.some.inj h).symm
  · next tail htail =>
    unfold Tail.credit? at h
    split at h
    · next hempty =>
      rw [tailGrade_of_length_le (by simpa using hempty)]
      exact (Option.some.inj h).symm
    · next hempty =>
      split at h
      · rw [tailGrade_of_lt_length htail (by simpa using hempty), ← Option.some.inj h,
          List.length_drop, convertibleScore]
        omega
      · cases h

/-! ### Whole patterns -/

/-- A score in either mode, where it is not zero. -/
theorem scoreSegments_eq_of_pos (h : 0 < p.scoreSegments options request) :
    p.scoreSegments options request =
      1 + ∑ i ∈ Finset.range request.length, gradeAt options.caseSensitive p.fixed request i +
        p.tailGrade request.length := by
  obtain ⟨n, hn⟩ := Nat.exists_eq_succ_of_ne_zero (Nat.pos_iff_ne_zero.1 h)
  obtain ⟨-, fixed, tail, hfixed, htail, rfl⟩ := scoreSegments_eq_succ_iff.1 hn
  obtain ⟨-, rfl⟩ := fixedCredit?_eq_some_iff.1 hfixed
  rw [hn, tailCredit?_eq_some htail]
  omega

/-- The pattern has no tail and another length than the request, or the tail is left a segment that
does not convert. -/
def Misses (p : Pattern) (request : List String) : Prop :=
  p.hasArray = false ∧ request.length ≠ p.texts.length ∨
    ∃ tail, p.tail = some tail ∧ p.texts.length ≤ request.length ∧
      ∃ i v, p.texts.length - 1 ≤ i ∧ request[i]? = some v ∧ tail.element.accepts v = false

theorem admits_lenient_eq_false_iff :
    p.admits .lenient request.length = false ↔
      p.hasArray = false ∧ request.length ≠ p.texts.length := by
  cases htail : p.tail with
  | none => simp [admits, hasArray, htail, length_texts_of_no_tail htail]
  | some tail => simp [admits, hasArray, htail]

theorem tailCredit?_eq_none_iff :
    p.tailCredit? request = none ↔ ∃ tail, p.tail = some tail ∧
      p.texts.length ≤ request.length ∧
        ∃ i v, p.texts.length - 1 ≤ i ∧ request[i]? = some v ∧ tail.element.accepts v = false := by
  cases htail : p.tail with
  | none => simp [tailCredit?, htail]
  | some tail =>
    have hcredit : p.tailCredit? request = tail.credit? (request.drop p.fixed.length) := by
      simp [tailCredit?, htail]
    rw [hcredit, Tail.credit?_eq_none_iff, length_texts_of_tail htail, Nat.add_sub_cancel]
    constructor
    · rintro ⟨v, hmem, hv⟩
      obtain ⟨j, hj⟩ := List.mem_iff_getElem?.1 hmem
      rw [List.getElem?_drop] at hj
      have hlt := (List.getElem?_eq_some_iff.1 hj).1
      exact ⟨tail, rfl, by omega, _, v, Nat.le_add_right _ _, hj, hv⟩
    · rintro ⟨_, ⟨⟩, -, i, v, hle, hi, hv⟩
      refine ⟨v, List.mem_iff_getElem?.2 ⟨i - p.fixed.length, ?_⟩, hv⟩
      rwa [List.getElem?_drop, Nat.add_sub_cancel' hle]

theorem scoreSegments_lenient_eq_zero_iff {caseSensitive : Bool} :
    p.scoreSegments ⟨.lenient, caseSensitive⟩ request = 0 ↔ p.Misses request := by
  obtain ⟨fixed, hfixed⟩ : ∃ fixed,
      fixedCredit? ⟨.lenient, caseSensitive⟩ p.fixed request = some fixed :=
    ⟨_, fixedCredit?_eq_some_iff.2 ⟨nofun, rfl⟩⟩
  rw [Misses, ← admits_lenient_eq_false_iff, ← tailCredit?_eq_none_iff]
  unfold scoreSegments
  cases p.admits .lenient request.length with
  | false => simp
  | true => cases p.tailCredit? request <;> simp [hfixed, baseScore]

/-- **The lenient score.** It is zero just where the request misses the pattern, and elsewhere it is
one point, the grades of the fixed segments, and the points of the tail. -/
theorem score_lenient (p : Pattern) (caseSensitive : Bool) (path : String) :
    let request := Path.segments path
    let score := p.score ⟨.lenient, caseSensitive⟩ path
    (score = 0 ↔ p.Misses request) ∧
      (¬p.Misses request →
        score = 1 + ∑ i ∈ Finset.range request.length, gradeAt caseSensitive p.fixed request i +
          p.tailGrade request.length) := by
  intro request score
  have hzero : score = 0 ↔ p.Misses request := scoreSegments_lenient_eq_zero_iff
  exact ⟨hzero, fun hmisses => scoreSegments_eq_of_pos (Nat.pos_iff_ne_zero.2 (mt hzero.1 hmisses))⟩

end Pattern
end TypedRouting
