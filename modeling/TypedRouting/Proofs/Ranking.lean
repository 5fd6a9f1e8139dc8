import Mathlib.Algebra.Order.BigOperators.Group.Finset
import TypedRouting.Proofs.Grades

/-!
# Specific patterns rank before generic ones

`Pattern.MoreSpecific` compares two patterns for one request by the grades of their fixed segments.
The segments that one of them leaves to a tail are compared with literals of the other, and a literal
is worth more than an item of a tail and the bonus together.

* `Pattern.scoreSegments_eq_sum`: without a tail the score is one point and the grades.
* `Pattern.score_lt_of_moreSpecific`: in either mode, the more specific pattern scores higher.
-/

namespace TypedRouting
namespace Pattern

variable {p q : Pattern} {request : List String} {caseSensitive : Bool} {options : ScoreOptions}

/-- The fixed segment at place `i` is a literal, and the request repeats it there. -/
def RepeatsAt (caseSensitive : Bool) (p : Pattern) (request : List String) (i : Nat) : Prop :=
  ∃ s v, p.fixed[i]? = some s ∧ request[i]? = some v ∧ s.Repeats caseSensitive v

/-- For the request, `p` is more specific than `q`. -/
structure MoreSpecific (caseSensitive : Bool) (request : List String) (p q : Pattern) : Prop where
  /-- The pattern `p` has no array and as many segments as the request. -/
  hasArray_eq : p.hasArray = false
  length_eq : p.fixed.length = request.length
  /-- So has `q`, or its array starts within the request, where `p` has literals from there on. -/
  covers : q.hasArray = false ∧ q.fixed.length = request.length ∨
    q.hasArray = true ∧ q.fixed.length < request.length ∧
      ∀ i, q.fixed.length ≤ i → i < request.length → p.RepeatsAt caseSensitive request i
  le : ∀ i < q.fixed.length,
    gradeAt caseSensitive q.fixed request i ≤ gradeAt caseSensitive p.fixed request i
  lt : q.hasArray = true ∨
    ∃ i, gradeAt caseSensitive q.fixed request i < gradeAt caseSensitive p.fixed request i

/-! ### Grades of one pattern -/

theorem gradeAt_of_repeatsAt {i : Nat} (h : p.RepeatsAt caseSensitive request i) :
    gradeAt caseSensitive p.fixed request i = 3 := by
  obtain ⟨s, v, hs, hv, text, rfl, hmatch⟩ := h
  simp [gradeAt, hs, hv, Segment.grade, hmatch]

theorem tail_eq_none_iff : p.tail = none ↔ p.hasArray = false := by simp [hasArray]

theorem tailGrade_le (p : Pattern) (count : Nat) :
    p.tailGrade count ≤ count - p.fixed.length + 1 := by
  cases htail : p.tail with
  | none =>
    rw [tailGrade_of_no_tail htail]
    exact Nat.zero_le _
  | some tail =>
    rcases Nat.lt_or_ge p.fixed.length count with hlt | hle
    · have hbonus := tail.element.bonus_le
      rw [tailGrade_of_lt_length htail hlt]
      omega
    · rw [tailGrade_of_length_le hle]
      exact Nat.zero_le _

/-- Without a tail the score is one point and the grades, if none of them is zero in the strict
mode. -/
theorem scoreSegments_eq_sum (harray : p.hasArray = false)
    (hlength : p.fixed.length = request.length)
    (hstrict : options.mode = .strict →
      ∀ i < request.length, 0 < gradeAt options.caseSensitive p.fixed request i) :
    p.scoreSegments options request =
      1 + ∑ i ∈ Finset.range request.length, gradeAt options.caseSensitive p.fixed request i := by
  have htail := tail_eq_none_iff.2 harray
  have hfixed : fixedCredit? options p.fixed request =
      some (∑ i ∈ Finset.range request.length,
        gradeAt options.caseSensitive p.fixed request i) := by
    refine fixedCredit?_eq_some_iff.2 ⟨?_, rfl⟩
    rwa [hlength, Nat.min_self]
  rw [Nat.add_comm]
  refine scoreSegments_eq_succ_iff.2 ⟨?_, _, 0, hfixed, ?_, rfl⟩
  · simp [admits, htail, hlength]
  · simp [tailCredit?, htail]

theorem grade_pos_of_strict (hmode : options.mode = .strict)
    (h : 0 < p.scoreSegments options request) (hlength : p.fixed.length ≤ request.length) :
    ∀ i < p.fixed.length, 0 < gradeAt options.caseSensitive p.fixed request i := by
  obtain ⟨n, hn⟩ := Nat.exists_eq_succ_of_ne_zero (Nat.pos_iff_ne_zero.1 h)
  obtain ⟨-, fixed, -, hfixed, -⟩ := scoreSegments_eq_succ_iff.1 hn
  have hgrades := (fixedCredit?_eq_some_iff.1 hfixed).1 hmode
  rwa [Nat.min_eq_left hlength] at hgrades

/-! ### Grades of two patterns -/

namespace MoreSpecific

variable (h : MoreSpecific caseSensitive request p q)
include h

theorem length_le : q.fixed.length ≤ request.length := by
  rcases h.covers with ⟨-, hlength⟩ | ⟨-, hlt, -⟩
  · exact Nat.le_of_eq hlength
  · exact Nat.le_of_lt hlt

/-- Where `q` leaves a segment to its tail, `p` has a literal. -/
theorem grade_eq_three {i : Nat} (hle : q.fixed.length ≤ i) (hlt : i < request.length) :
    gradeAt caseSensitive p.fixed request i = 3 := by
  rcases h.covers with ⟨-, hlength⟩ | ⟨-, -, hrepeats⟩
  · omega
  · exact gradeAt_of_repeatsAt (hrepeats i hle hlt)

theorem sum_add_le :
    ∑ i ∈ Finset.range request.length, gradeAt caseSensitive q.fixed request i +
        3 * (request.length - q.fixed.length) ≤
      ∑ i ∈ Finset.range request.length, gradeAt caseSensitive p.fixed request i := by
  obtain ⟨r, hr⟩ := Nat.exists_eq_add_of_le h.length_le
  have hrest : ∑ j ∈ Finset.range r, gradeAt caseSensitive q.fixed request (q.fixed.length + j) =
      0 := Finset.sum_eq_zero fun j _ => gradeAt_of_length_le (Nat.le_add_right _ _)
  have hliterals :
      ∑ j ∈ Finset.range r, gradeAt caseSensitive p.fixed request (q.fixed.length + j) = 3 * r := by
    have hthree : ∀ j ∈ Finset.range r,
        gradeAt caseSensitive p.fixed request (q.fixed.length + j) = 3 := by
      intro j hj
      have hlt := Finset.mem_range.1 hj
      exact h.grade_eq_three (Nat.le_add_right _ _) (by omega)
    rw [Finset.sum_const_nat hthree, Finset.card_range, Nat.mul_comm]
  have hfixed : ∑ i ∈ Finset.range q.fixed.length, gradeAt caseSensitive q.fixed request i ≤
      ∑ i ∈ Finset.range q.fixed.length, gradeAt caseSensitive p.fixed request i :=
    Finset.sum_le_sum fun i hi => h.le i (Finset.mem_range.1 hi)
  rw [hr, Finset.sum_range_add, Finset.sum_range_add, hrest, hliterals]
  omega

/-- The grades of `p` outweigh those of `q` and all points of its tail. -/
theorem sum_add_tailGrade_lt :
    ∑ i ∈ Finset.range request.length, gradeAt caseSensitive q.fixed request i +
        q.tailGrade request.length <
      ∑ i ∈ Finset.range request.length, gradeAt caseSensitive p.fixed request i := by
  rcases h.covers with ⟨harray, hlength⟩ | ⟨-, hlt, -⟩
  · obtain ⟨i, hi⟩ := h.lt.resolve_left (by simp [harray])
    rw [tailGrade_of_no_tail (tail_eq_none_iff.2 harray), Nat.add_zero]
    have hle : ∀ j ∈ Finset.range request.length, gradeAt caseSensitive q.fixed request j ≤
        gradeAt caseSensitive p.fixed request j := by
      intro j hj
      exact h.le j (by rw [hlength]; exact Finset.mem_range.1 hj)
    -- beyond the patterns there are no grades
    have hplace : i < request.length := by
      by_contra hbeyond
      rw [gradeAt_of_length_le (h.length_eq.le.trans (Nat.not_lt.1 hbeyond))] at hi
      exact Nat.not_lt_zero _ hi
    exact Finset.sum_lt_sum hle ⟨i, Finset.mem_range.2 hplace, hi⟩
  · have hsum := h.sum_add_le
    have htail := q.tailGrade_le request.length
    omega

/-- The grades of `p` are positive where those of `q` are. -/
theorem grade_pos (hq : ∀ i < q.fixed.length, 0 < gradeAt caseSensitive q.fixed request i) :
    ∀ i < request.length, 0 < gradeAt caseSensitive p.fixed request i := by
  intro i hi
  rcases Nat.lt_or_ge i q.fixed.length with hfixed | hleft
  · exact Nat.lt_of_lt_of_le (hq i hfixed) (h.le i hfixed)
  · rw [h.grade_eq_three hleft hi]
    decide

end MoreSpecific

/-- **Ranking.** In either mode, if a pattern scores then a more specific one scores higher. -/
theorem score_lt_of_moreSpecific {path : String}
    (h : MoreSpecific options.caseSensitive (Path.segments path) p q)
    (hpos : 0 < q.score options path) : q.score options path < p.score options path := by
  have hp : p.score options path = 1 + ∑ i ∈ Finset.range (Path.segments path).length,
      gradeAt options.caseSensitive p.fixed (Path.segments path) i :=
    scoreSegments_eq_sum h.hasArray_eq h.length_eq fun hmode =>
      h.grade_pos (grade_pos_of_strict hmode hpos h.length_le)
  have hq := scoreSegments_eq_of_pos hpos
  have hlt := h.sum_add_tailGrade_lt
  unfold score at hp ⊢
  omega

end Pattern

namespace Sample

/-- The pattern of `/{Integer}/b/c`. -/
def specific : Pattern :=
  ⟨[.placeholder (.whole .integer) ⟨"{Integer}", none⟩, .literal "b", .literal "c"], none⟩

/-- The pattern of `/{Decimal}/{String...}`. -/
def generic : Pattern :=
  ⟨[.placeholder .decimal ⟨"{Decimal}", none⟩], some ⟨.string, "{String...}", none⟩⟩

theorem specific_moreSpecific :
    Pattern.MoreSpecific false (Path.segments "/5/B/c") specific generic where
  hasArray_eq := rfl
  length_eq := rfl
  covers := by
    refine .inr ⟨rfl, by decide, fun i hle hlt => ?_⟩
    have hle : 1 ≤ i := hle
    have hlt : i < 3 := hlt
    obtain rfl | rfl : i = 1 ∨ i = 2 := by omega
    · exact ⟨_, _, rfl, rfl, _, rfl, by decide⟩
    · exact ⟨_, _, rfl, rfl, _, rfl, by decide⟩
  le := by decide
  lt := .inl rfl

end Sample

/-- An array that starts where the other pattern has two literals. -/
theorem Pattern.score_lt_of_moreSpecific_sample :
    MoreSpecific false (Path.segments "/5/B/c") Sample.specific Sample.generic ∧
      0 < Sample.generic.score ⟨.strict, false⟩ "/5/B/c" ∧
      Sample.generic.score ⟨.strict, false⟩ "/5/B/c" <
        Sample.specific.score ⟨.strict, false⟩ "/5/B/c" := by
  have hpos : 0 < Sample.generic.score ⟨.strict, false⟩ "/5/B/c" := by decide
  exact ⟨Sample.specific_moreSpecific, hpos,
    Pattern.score_lt_of_moreSpecific Sample.specific_moreSpecific hpos⟩

end TypedRouting
