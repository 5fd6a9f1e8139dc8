import TypedRouting.Proofs.LetterCase

/-!
# The highest score of a request

A request of `n` segments scores at most `1 + 3 * n`, in either mode.

* `Pattern.scoreSegments_le`: the bound.
* `Pattern.scoreSegments_eq_top_iff`: a pattern has that score just where it admits the length of
  the request and every segment of the request repeats a literal. So the pattern ends there or goes
  on to an array that is left empty.
-/

namespace TypedRouting

/-! ### Fixed segments -/

/-- The segment is a literal, and the request repeats it. -/
def Segment.Repeats (caseSensitive : Bool) (s : Segment) (value : String) : Prop :=
  ∃ text, s = .literal text ∧ literalMatches caseSensitive text value = true

theorem ScalarType.bonus_le (t : ScalarType) : t.bonus ≤ 1 := by
  unfold bonus
  split <;> omega

theorem Segment.credit_le (caseSensitive : Bool) (s : Segment) (value : String) :
    (s.credit? caseSensitive value).getD 0 ≤ 3 := by
  cases s with
  | literal text =>
    by_cases h : literalMatches caseSensitive text value = true <;> simp [credit?, literalScore, h]
  | placeholder t wording =>
    have := t.bonus_le
    by_cases h : t.accepts value = true <;> simp [credit?, convertibleScore, h]
    omega

/-- Only a literal that is repeated is worth three points. -/
theorem Segment.credit_eq_three_iff {caseSensitive : Bool} {s : Segment} {value : String} :
    (s.credit? caseSensitive value).getD 0 = 3 ↔ s.Repeats caseSensitive value := by
  cases s with
  | literal text =>
    by_cases h : literalMatches caseSensitive text value = true <;>
      simp [credit?, Repeats, literalScore, h]
  | placeholder t wording =>
    have := t.bonus_le
    by_cases h : t.accepts value = true <;> simp [credit?, Repeats, convertibleScore, h]
    omega

theorem fixedCredit?_cons_eq_some {options : ScoreOptions} {s : Segment} {ss : List Segment}
    {v : String} {vs : List String} {c : Nat} :
    fixedCredit? options (s :: ss) (v :: vs) = some c ↔
      (options.mode = .strict → (s.credit? options.caseSensitive v).isSome) ∧
      ∃ rest, fixedCredit? options ss vs = some rest ∧
        (s.credit? options.caseSensitive v).getD 0 + rest = c := by
  cases hs : s.credit? options.caseSensitive v with
  | none => cases hm : options.mode <;> simp [fixedCredit?, hs, hm]
  | some points => simp [fixedCredit?, hs]

theorem fixedCredit?_le {options : ScoreOptions} {ss : List Segment} {vs : List String} {c : Nat}
    (h : fixedCredit? options ss vs = some c) : c ≤ 3 * min ss.length vs.length := by
  induction ss generalizing vs c with
  | nil =>
    obtain rfl : 0 = c := by simpa [fixedCredit?] using h
    exact Nat.zero_le _
  | cons s ss ih =>
    cases vs with
    | nil =>
      obtain rfl : 0 = c := by simpa [fixedCredit?] using h
      exact Nat.zero_le _
    | cons v vs =>
      obtain ⟨-, rest, hrest, rfl⟩ := fixedCredit?_cons_eq_some.1 h
      have hpoints := s.credit_le options.caseSensitive v
      have := ih hrest
      simp only [List.length_cons]
      omega

theorem fixedCredit?_eq_top_iff {options : ScoreOptions} {ss : List Segment} {vs : List String} :
    fixedCredit? options ss vs = some (3 * min ss.length vs.length) ↔
      ∀ x ∈ ss.zip vs, x.1.Repeats options.caseSensitive x.2 := by
  induction ss generalizing vs with
  | nil => simp [fixedCredit?]
  | cons s ss ih =>
    cases vs with
    | nil => simp [fixedCredit?]
    | cons v vs =>
      have hlen : 3 * min (s :: ss).length (v :: vs).length =
          3 + 3 * min ss.length vs.length := by
        simp only [List.length_cons]
        omega
      rw [fixedCredit?_cons_eq_some, hlen, List.zip_cons_cons, List.forall_mem_cons, ← ih,
        ← Segment.credit_eq_three_iff]
      dsimp only
      constructor
      · rintro ⟨-, rest, hrest, hsum⟩
        -- neither part can make up for the other
        have hpoints := s.credit_le options.caseSensitive v
        have hbound := fixedCredit?_le hrest
        exact ⟨by omega, by rw [hrest]; congr 1; omega⟩
      · rintro ⟨hpoints, hrest⟩
        refine ⟨fun _ => ?_, _, hrest, by omega⟩
        cases hs : s.credit? options.caseSensitive v with
        | none => simp [hs] at hpoints
        | some points => rfl

/-! ### The tail -/

theorem Tail.credit?_le {tail : Tail} {items : List String} {c : Nat}
    (h : tail.credit? items = some c) : c ≤ 2 * items.length := by
  unfold credit? at h
  split at h
  · cases h
    exact Nat.zero_le _
  · next hne =>
    split at h
    · cases h
      have hbonus := tail.element.bonus_le
      have hpos : 0 < items.length := List.length_pos_iff.2 (by simpa using hne)
      simp only [convertibleScore]
      omega
    · cases h

theorem Tail.credit?_nil (tail : Tail) : tail.credit? [] = some 0 := rfl

namespace Pattern

theorem tailCredit?_le {p : Pattern} {request : List String} {c : Nat}
    (h : p.tailCredit? request = some c) : c ≤ 2 * (request.length - p.fixed.length) := by
  unfold tailCredit? at h
  split at h
  · cases h
    exact Nat.zero_le _
  · simpa using Tail.credit?_le h

theorem tailCredit?_of_length_le {p : Pattern} {request : List String}
    (h : request.length ≤ p.fixed.length) : p.tailCredit? request = some 0 := by
  unfold tailCredit?
  split
  · rfl
  · rw [List.drop_eq_nil_of_le h, Tail.credit?_nil]

/-! ### Whole patterns -/

/-- The score of a request is the sum of its parts, where it is not zero. -/
theorem scoreSegments_eq_succ_iff {options : ScoreOptions} {p : Pattern} {request : List String}
    {n : Nat} :
    p.scoreSegments options request = n + 1 ↔
      p.admits options.mode request.length = true ∧
      ∃ fixed tail, fixedCredit? options p.fixed request = some fixed ∧
        p.tailCredit? request = some tail ∧ fixed + tail = n := by
  unfold scoreSegments
  cases p.admits options.mode request.length with
  | false => simp
  | true =>
    cases fixedCredit? options p.fixed request with
    | none => simp
    | some fixed =>
      cases p.tailCredit? request with
      | none => simp
      | some tail =>
        simp [baseScore]
        omega

theorem scoreSegments_le (options : ScoreOptions) (p : Pattern) (request : List String) :
    p.scoreSegments options request ≤ 1 + 3 * request.length := by
  cases h : p.scoreSegments options request with
  | zero => omega
  | succ n =>
    obtain ⟨-, fixed, tail, hfixed, htail, rfl⟩ := scoreSegments_eq_succ_iff.1 h
    have := fixedCredit?_le hfixed
    have := tailCredit?_le htail
    omega

theorem scoreSegments_eq_top_iff {options : ScoreOptions} {p : Pattern} {request : List String} :
    p.scoreSegments options request = 1 + 3 * request.length ↔
      p.admits options.mode request.length = true ∧ request.length ≤ p.fixed.length ∧
      ∀ x ∈ p.fixed.zip request, x.1.Repeats options.caseSensitive x.2 := by
  rw [Nat.add_comm, scoreSegments_eq_succ_iff, ← fixedCredit?_eq_top_iff]
  constructor
  · rintro ⟨hadmits, fixed, tail, hfixed, htail, hsum⟩
    have hf := fixedCredit?_le hfixed
    have ht := tailCredit?_le htail
    -- a segment left to the tail is worth less than three points
    have hlen : request.length ≤ p.fixed.length := by omega
    exact ⟨hadmits, hlen, by rw [hfixed]; congr 1; omega⟩
  · rintro ⟨hadmits, hlen, hfixed⟩
    refine ⟨hadmits, _, 0, hfixed, tailCredit?_of_length_le hlen, ?_⟩
    omega

end Pattern
end TypedRouting
