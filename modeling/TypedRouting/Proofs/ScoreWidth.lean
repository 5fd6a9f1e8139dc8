import TypedRouting.Proofs.PatternLayout
import TypedRouting.Proofs.ScoreBound

/-!
# Scores counted in 32 bits

A score can be counted in one scan of the request, with a sum of 32 bits that each match adds to.
`Pattern.score32` is that count: it stops at the first sum that does not fit, and at a difference
of lengths that would be negative.

* `Pattern.counts_score32`: where the highest score of the request fits into 32 bits, every sum on
  the way does, and the count is the score.
* `Pattern.scoreSegments_eq_top_iff_matchable`: which patterns have the highest score, by their
  shapes.
* `Pattern.score_bound`: both, for a request path.
-/

namespace TypedRouting

/-! ### Arithmetic with limits -/

/-- A result that is no number of the width, or no number without a sign. -/
inductive ArithmeticFault
  | overflow
  | underflow
  deriving DecidableEq, Repr

/-- Adds points to a score. -/
def addPoints (score : UInt32) (points : Nat) : Except ArithmeticFault UInt32 :=
  if score.toNat + points < 2 ^ 32 then .ok (score + UInt32.ofNat points) else .error .overflow

/-- Takes one length from another. -/
def subtractLength (a b : Nat) : Except ArithmeticFault Nat :=
  if b ≤ a then .ok (a - b) else .error .underflow

/-- The count came to an end, at this number. -/
def Counts (count : Except ArithmeticFault UInt32) (n : Nat) : Prop :=
  ∃ total, count = .ok total ∧ total.toNat = n

section Counts

variable {count : Except ArithmeticFault UInt32} {score : UInt32} {n m points : Nat}

theorem counts_ok (score : UInt32) : Counts (.ok score) score.toNat := ⟨score, rfl, rfl⟩

theorem counts_addPoints (h : score.toNat + points < 2 ^ 32) :
    Counts (addPoints score points) (score.toNat + points) := by
  refine ⟨score + UInt32.ofNat points, if_pos h, ?_⟩
  have hpoints : (UInt32.ofNat points).toNat = points := UInt32.toNat_ofNat_of_lt' (by
    show points < 2 ^ 32
    omega)
  rw [UInt32.toNat_add, hpoints, Nat.mod_eq_of_lt h]

theorem Counts.bind {next : UInt32 → Except ArithmeticFault UInt32} (h : Counts count n)
    (hnext : ∀ score : UInt32, score.toNat = n → Counts (next score) m) :
    Counts (count >>= next) m := by
  obtain ⟨score, rfl, hscore⟩ := h
  exact hnext score hscore

end Counts

/-! ### The scan -/

/-- Adds the points of a type without fractions. -/
def countBonus (t : ScalarType) (score : UInt32) : Except ArithmeticFault UInt32 :=
  if t.isFractional then .ok score else addPoints score 1

/-- Adds a point for each item, and comes to zero at one that does not convert. -/
def countItems (t : ScalarType) (score : UInt32) : List String → Except ArithmeticFault UInt32
  | [] => .ok score
  | v :: vs =>
    if t.accepts v then do
      let score ← addPoints score convertibleScore
      countItems t score vs
    else .ok 0

/-- Compares the shapes of a pattern with the segments of a request, from left to right. -/
def scan (options : ScoreOptions) (score : UInt32) :
    List Shape → List String → Except ArithmeticFault UInt32
  | .literal text :: shapes, v :: vs =>
    if literalMatches options.caseSensitive text v then do
      let score ← addPoints score literalScore
      scan options score shapes vs
    else if options.mode = .strict then .ok 0
    else scan options score shapes vs
  | .typed (.scalar t) :: shapes, v :: vs =>
    if t.accepts v then do
      let score ← addPoints score convertibleScore
      let score ← countBonus t score
      scan options score shapes vs
    else if options.mode = .strict then .ok 0
    else scan options score shapes vs
  | .typed (.array t) :: _, v :: vs => do
    let score ← countBonus t score
    countItems t score (v :: vs)
  | .root :: shapes, _ :: vs => scan options score shapes vs
  | _, _ => .ok score

namespace Pattern

/-- The shapes that a request is compared with. The root has none. -/
def matchable (p : Pattern) : List Shape := if p.isRoot then [] else p.shapes

/-- The score of a request as one scan counts it. -/
def score32 (options : ScoreOptions) (p : Pattern) (request : List String) :
    Except ArithmeticFault UInt32 :=
  if request.length ≠ p.matchable.length ∧ p.hasArray = false then .ok 0
  else
    match options.mode with
    | .lenient => scan options 1 p.matchable request
    | .strict => do
      let least ← subtractLength p.matchable.length p.hasArray.toNat
      if request.length < least then .ok 0 else scan options 1 p.matchable request

/-! ### Shapes to compare with -/

theorem matchable_eq (p : Pattern) :
    p.matchable = p.fixed.map Segment.shape ++ p.tail.toList.map (.typed <| .array ·.element) := by
  unfold matchable shapes
  cases h : p.isRoot with
  | false => rfl
  | true =>
    obtain ⟨hfixed, htail⟩ : p.fixed = [] ∧ p.tail = none := by simpa [isRoot] using h
    rw [hfixed, htail]
    rfl

theorem length_matchable (p : Pattern) :
    p.matchable.length = p.fixed.length + p.hasArray.toNat := by
  rw [matchable_eq, List.length_append, List.length_map]
  cases htail : p.tail <;> simp [hasArray, htail]

/-- An array is one of the shapes, so the length without it is that of the fixed segments. -/
theorem subtractLength_matchable (p : Pattern) :
    subtractLength p.matchable.length p.hasArray.toNat = .ok p.fixed.length := by
  have hlength := p.length_matchable
  unfold subtractLength
  rw [if_pos (by omega), hlength, Nat.add_sub_cancel]

theorem matchable_cons (s : Segment) (ss : List Segment) (tail : Option Tail) :
    matchable ⟨s :: ss, tail⟩ = s.shape :: matchable ⟨ss, tail⟩ := by
  rw [matchable_eq, matchable_eq]
  rfl

/-! ### The points of a request -/

/-- The points of the pattern for a request, or none where one of its segments ends the match. -/
def credit? (options : ScoreOptions) (p : Pattern) (request : List String) : Option Nat :=
  match fixedCredit? options p.fixed request, p.tailCredit? request with
  | some fixed, some tail => some (fixed + tail)
  | _, _ => none

variable {options : ScoreOptions} {p : Pattern} {request : List String}

theorem scoreSegments_eq_credit? (hadmits : p.admits options.mode request.length = true) :
    p.scoreSegments options request = (p.credit? options request).elim 0 (1 + ·) := by
  rw [scoreSegments, credit?, if_pos hadmits]
  cases fixedCredit? options p.fixed request with
  | none => rfl
  | some fixed =>
    cases p.tailCredit? request with
    | none => rfl
    | some tail => exact Nat.add_assoc 1 fixed tail

theorem credit?_nil : p.credit? options [] = some 0 := by
  have hfixed : fixedCredit? options p.fixed [] = some 0 := by cases p.fixed <;> rfl
  have htail : p.tailCredit? [] = some 0 := tailCredit?_of_length_le (Nat.zero_le _)
  rw [credit?, hfixed, htail]

theorem credit?_cons {s : Segment} {ss : List Segment} {tail : Option Tail} {v : String}
    {vs : List String} :
    credit? options ⟨s :: ss, tail⟩ (v :: vs) =
      if s.credit? options.caseSensitive v = none ∧ options.mode = .strict then none
      else (credit? options ⟨ss, tail⟩ vs).map
        ((s.credit? options.caseSensitive v).getD 0 + ·) := by
  have htail : tailCredit? ⟨s :: ss, tail⟩ (v :: vs) = tailCredit? ⟨ss, tail⟩ vs := rfl
  unfold credit?
  rw [htail]
  cases hs : s.credit? options.caseSensitive v with
  | none =>
    cases hmode : options.mode with
    | strict => simp [fixedCredit?, hs, hmode]
    | lenient =>
      cases hfixed : fixedCredit? options ss vs <;> cases tailCredit? ⟨ss, tail⟩ vs <;>
        simp [fixedCredit?, hs, hmode, hfixed]
  | some points =>
    cases hfixed : fixedCredit? options ss vs <;> cases tailCredit? ⟨ss, tail⟩ vs <;>
      simp [fixedCredit?, hs, hfixed, Nat.add_assoc]

end Pattern

/-! ### The count is exact -/

section Scan

variable {options : ScoreOptions} {score : UInt32} {v : String} {vs : List String} {n : Nat}

theorem counts_countBonus {t : ScalarType} (h : score.toNat + t.bonus < 2 ^ 32) :
    Counts (countBonus t score) (score.toNat + t.bonus) := by
  unfold countBonus
  unfold ScalarType.bonus at h ⊢
  split
  · exact counts_ok score
  · next hfraction =>
    rw [if_neg hfraction] at h
    exact counts_addPoints h

theorem counts_countItems {t : ScalarType} (h : score.toNat + vs.length < 2 ^ 32) :
    Counts (countItems t score vs)
      (if vs.all t.accepts then score.toNat + vs.length else 0) := by
  induction vs generalizing score with
  | nil => exact counts_ok score
  | cons v vs ih =>
    rw [List.length_cons] at h
    by_cases hv : t.accepts v = true
    · have hone : score.toNat + convertibleScore < 2 ^ 32 := by
        rw [convertibleScore]
        omega
      rw [countItems, if_pos hv]
      apply (counts_addPoints hone).bind
      intro next hnext
      rw [convertibleScore] at hnext
      have hsum : score.toNat + (v :: vs).length = next.toNat + vs.length := by
        rw [List.length_cons]
        omega
      rw [List.all_cons, hv, Bool.true_and, hsum]
      exact ih (by omega)
    · rw [countItems, if_neg hv, List.all_cons, Bool.eq_false_iff.2 hv, Bool.false_and]
      exact counts_ok 0

/-- A segment that fails adds nothing, or ends the match. -/
theorem scan_of_no_credit {s : Segment} {shapes : List Shape}
    (h : s.credit? options.caseSensitive v = none) :
    scan options score (s.shape :: shapes) (v :: vs) =
      if options.mode = .strict then .ok 0 else scan options score shapes vs := by
  cases s with
  | literal text =>
    have hmatch : ¬literalMatches options.caseSensitive text v = true := by
      simpa [Segment.credit?] using h
    rw [Segment.shape, scan, if_neg hmatch]
  | placeholder t wording =>
    have haccepts : ¬t.accepts v = true := by simpa [Segment.credit?] using h
    rw [Segment.shape, scan, if_neg haccepts]

/-- A segment that does not fail adds its points, in one sum or in two. -/
theorem counts_scan_of_credit {s : Segment} {shapes : List Shape} {points : Nat}
    (h : s.credit? options.caseSensitive v = some points) (hfits : score.toNat + points < 2 ^ 32)
    (hnext : ∀ next : UInt32, next.toNat = score.toNat + points →
      Counts (scan options next shapes vs) n) :
    Counts (scan options score (s.shape :: shapes) (v :: vs)) n := by
  cases s with
  | literal text =>
    obtain ⟨hmatch, rfl⟩ : literalMatches options.caseSensitive text v = true ∧
        literalScore = points := by simpa [Segment.credit?] using h
    rw [Segment.shape, scan, if_pos hmatch]
    exact (counts_addPoints hfits).bind hnext
  | placeholder t wording =>
    obtain ⟨haccepts, rfl⟩ : t.accepts v = true ∧ convertibleScore + t.bonus = points := by
      simpa [Segment.credit?] using h
    have hone : score.toNat + convertibleScore < 2 ^ 32 := by omega
    rw [Segment.shape, scan, if_pos haccepts]
    apply (counts_addPoints hone).bind
    intro middle hmiddle
    have hbonus : middle.toNat + t.bonus < 2 ^ 32 := by omega
    apply (counts_countBonus hbonus).bind
    intro next hsum
    exact hnext next (by omega)

theorem counts_scan_tail {tail : Option Tail} {request : List String}
    (h : score.toNat + 3 * request.length < 2 ^ 32) :
    Counts (scan options score (Pattern.matchable ⟨[], tail⟩) request)
      ((Pattern.credit? options ⟨[], tail⟩ request).elim 0 (score.toNat + ·)) := by
  rw [Pattern.matchable_eq]
  cases tail with
  | none => exact counts_ok score
  | some array =>
    cases request with
    | nil => exact counts_ok score
    | cons v vs =>
      have hbonus := array.element.bonus_le
      rw [List.length_cons] at h
      have hcredit : Pattern.credit? options ⟨[], some array⟩ (v :: vs) =
          if (v :: vs).all array.element.accepts then
            some (array.element.bonus + (v :: vs).length)
          else none := by
        have htail : Pattern.tailCredit? ⟨[], some array⟩ (v :: vs) = array.credit? (v :: vs) := rfl
        have hfixed : fixedCredit? options [] (v :: vs) = some 0 := rfl
        rw [Pattern.credit?, htail, hfixed, Tail.credit?]
        by_cases hall : (v :: vs).all array.element.accepts = true
        · simp [hall, convertibleScore]
        · simp [hall]
      rw [hcredit]
      show Counts (countBonus array.element score >>= fun score =>
        countItems array.element score (v :: vs)) _
      apply (counts_countBonus (by omega)).bind
      intro next hnext
      have hroom : next.toNat + (v :: vs).length < 2 ^ 32 := by
        rw [List.length_cons]
        omega
      have hitems := @counts_countItems next _ array.element hroom
      split at hitems
      · next hall =>
        rw [if_pos hall, Option.elim_some, ← Nat.add_assoc, ← hnext]
        exact hitems
      · next hall =>
        rw [if_neg hall]
        exact hitems

end Scan

namespace Pattern

variable {options : ScoreOptions} {p : Pattern} {score : UInt32} {request : List String}

/-- Three points for each segment of the request leave room for every sum of the scan. -/
theorem counts_scan (h : score.toNat + 3 * request.length < 2 ^ 32) :
    Counts (scan options score p.matchable request)
      ((p.credit? options request).elim 0 (score.toNat + ·)) := by
  obtain ⟨ss, tail⟩ := p
  induction ss generalizing score request with
  | nil => exact counts_scan_tail h
  | cons s ss ih =>
    rw [matchable_cons]
    cases request with
    | nil =>
      rw [credit?_nil]
      have hstop : scan options score (s.shape :: matchable ⟨ss, tail⟩) [] = .ok score := by
        cases s <;> rfl
      rw [hstop]
      exact counts_ok score
    | cons v vs =>
      rw [List.length_cons] at h
      rw [credit?_cons]
      cases hs : s.credit? options.caseSensitive v with
      | none =>
        rw [scan_of_no_credit hs]
        cases hmode : options.mode with
        | strict => exact counts_ok 0
        | lenient => simpa using ih (by omega)
      | some points =>
        have hpoints := s.credit_le options.caseSensitive v
        rw [hs, Option.getD_some] at hpoints
        apply counts_scan_of_credit hs (by omega)
        intro next hnext
        have hrest : Counts (scan options next (matchable ⟨ss, tail⟩) vs) _ := ih (by omega)
        simpa [Option.elim_map, Function.comp_def, hnext, Nat.add_assoc] using hrest

theorem admits_iff {mode : ScoringMode} {count : Nat} :
    p.admits mode count = true ↔
      ¬(count ≠ p.matchable.length ∧ p.hasArray = false) ∧
        (mode = .strict → p.fixed.length ≤ count) := by
  have hlength := p.length_matchable
  cases htail : p.tail with
  | none =>
    have harray : p.hasArray = false := by simp [hasArray, htail]
    rw [harray] at hlength
    simp [admits, htail, harray, hlength]
    omega
  | some tail =>
    have harray : p.hasArray = true := by simp [hasArray, htail]
    cases mode <;> simp [admits, htail, harray]

/-- **The count is exact.** Where the highest score of the request fits into 32 bits, so does every
sum on the way, and the count is the score. -/
theorem counts_score32 (h : 1 + 3 * request.length < 2 ^ 32) :
    Counts (p.score32 options request) (p.scoreSegments options request) := by
  have hscan : Counts (scan options 1 p.matchable request)
      ((p.credit? options request).elim 0 (1 + ·)) := counts_scan h
  have hzero : p.admits options.mode request.length = false →
      Counts (.ok 0) (p.scoreSegments options request) := by
    intro hadmits
    rw [scoreSegments, hadmits]
    exact counts_ok 0
  by_cases hlength : request.length ≠ p.matchable.length ∧ p.hasArray = false
  · rw [score32, if_pos hlength]
    exact hzero (Bool.eq_false_iff.2 fun hadmits => (admits_iff.1 hadmits).1 hlength)
  · rw [score32, if_neg hlength]
    cases hmode : options.mode with
    | lenient =>
      rw [scoreSegments_eq_credit? (admits_iff.2 ⟨hlength, by simp [hmode]⟩)]
      exact hscan
    | strict =>
      rw [subtractLength_matchable]
      show Counts (if request.length < p.fixed.length then .ok 0 else _) _
      split
      · next hshort =>
        refine hzero (Bool.eq_false_iff.2 fun hadmits => ?_)
        exact Nat.not_le.2 hshort ((admits_iff.1 hadmits).2 hmode)
      · next hlong =>
        rw [scoreSegments_eq_credit? (admits_iff.2 ⟨hlength, fun _ => Nat.not_lt.1 hlong⟩)]
        exact hscan

/-! ### The highest score -/

theorem getElem?_matchable_of_lt {i : Nat} (h : i < p.fixed.length) :
    p.matchable[i]? = some (p.fixed[i].shape) := by
  rw [matchable_eq, List.getElem?_append_left (by simpa using h)]
  simp [h]

theorem getElem?_matchable_length :
    p.matchable[p.fixed.length]? = p.tail.map (.typed <| .array ·.element) := by
  rw [matchable_eq, List.getElem?_append_right (by simp)]
  cases p.tail <;> simp

/-- The array of a pattern stands behind its fixed segments. -/
theorem exists_array_iff {i : Nat} :
    (∃ t, p.matchable[i]? = some (.typed (.array t))) ↔ p.hasArray = true ∧ i = p.fixed.length := by
  have hlength := p.length_matchable
  constructor
  · rintro ⟨t, ht⟩
    have hi := (List.getElem?_eq_some_iff.1 ht).1
    rcases Nat.lt_or_ge i p.fixed.length with hlt | hge
    · rw [getElem?_matchable_of_lt hlt] at ht
      cases hs : p.fixed[i] <;> simp [hs, Segment.shape] at ht
    · cases harray : p.hasArray with
      | false =>
        rw [harray, Bool.toNat_false] at hlength
        omega
      | true =>
        rw [harray, Bool.toNat_true] at hlength
        exact ⟨rfl, by omega⟩
  · rintro ⟨harray, rfl⟩
    obtain ⟨tail, htail⟩ := Option.isSome_iff_exists.1 harray
    exact ⟨tail.element, by rw [getElem?_matchable_length, htail]; rfl⟩

/-- The pattern starts with a literal for each segment of the request, which repeats it. -/
def Repeats (caseSensitive : Bool) (p : Pattern) (request : List String) : Prop :=
  ∀ i < request.length, ∃ text v, p.matchable[i]? = some (.literal text) ∧
    request[i]? = some v ∧ literalMatches caseSensitive text v = true

theorem Repeats.length_le {caseSensitive : Bool} (h : p.Repeats caseSensitive request) :
    request.length ≤ p.fixed.length := by
  by_contra hlt
  obtain ⟨text, v, htext, -⟩ := h p.fixed.length (by omega)
  -- an array stands there, or nothing
  rw [getElem?_matchable_length] at htext
  cases htail : p.tail <;> simp [htail] at htext

theorem repeats_iff {caseSensitive : Bool} :
    p.Repeats caseSensitive request ↔ request.length ≤ p.fixed.length ∧
      ∀ x ∈ p.fixed.zip request, x.1.Repeats caseSensitive x.2 := by
  constructor
  · intro h
    refine ⟨h.length_le, fun x hx => ?_⟩
    obtain ⟨i, hi, rfl⟩ := List.getElem_of_mem hx
    rw [List.length_zip, Nat.lt_min] at hi
    obtain ⟨text, v, htext, hv, hmatch⟩ := h i hi.2
    rw [getElem?_matchable_of_lt hi.1] at htext
    rw [List.getElem?_eq_getElem hi.2] at hv
    cases hv
    rw [List.getElem_zip]
    refine ⟨text, ?_, hmatch⟩
    cases hs : p.fixed[i] <;> simp_all [Segment.shape]
  · rintro ⟨hlength, hrepeats⟩ i hi
    have hfixed : i < p.fixed.length := by omega
    have hzip : i < (p.fixed.zip request).length := by
      rw [List.length_zip]
      omega
    have hplace := hrepeats _ (List.getElem_mem hzip)
    rw [List.getElem_zip] at hplace
    obtain ⟨text, htext, hmatch⟩ := hplace
    dsimp only at htext
    refine ⟨text, request[i], ?_, List.getElem?_eq_getElem hi, hmatch⟩
    rw [getElem?_matchable_of_lt hfixed, htext]
    rfl

/-- The patterns with the highest score repeat the request, and end there or go on to an array. The
strict mode asks for that array next. -/
theorem scoreSegments_eq_top_iff_matchable :
    p.scoreSegments options request = 1 + 3 * request.length ↔
      p.Repeats options.caseSensitive request ∧
        (p.matchable.length = request.length ∨ p.hasArray = true ∧
          (options.mode = .strict →
            ∃ t, p.matchable[request.length]? = some (.typed (.array t)))) := by
  rw [scoreSegments_eq_top_iff, ← repeats_iff, exists_array_iff, admits_iff]
  have hlength := p.length_matchable
  constructor
  · rintro ⟨⟨hadmits, hmode⟩, hrepeats⟩
    have hle := hrepeats.length_le
    refine ⟨hrepeats, ?_⟩
    cases harray : p.hasArray with
    | false =>
      have heq : request.length = p.matchable.length := by
        by_contra hne
        exact hadmits ⟨hne, harray⟩
      exact .inl heq.symm
    | true =>
      refine .inr ⟨rfl, fun hstrict => ⟨rfl, ?_⟩⟩
      have hge := hmode hstrict
      omega
  · rintro ⟨hrepeats, hend⟩
    have hle := hrepeats.length_le
    refine ⟨⟨?_, fun hstrict => ?_⟩, hrepeats⟩
    · rintro ⟨hne, harray⟩
      rcases hend with heq | ⟨htrue, -⟩
      · exact hne heq.symm
      · rw [harray] at htrue
        cases htrue
    · rcases hend with heq | ⟨-, hplace⟩
      · omega
      · obtain ⟨-, heq⟩ := hplace hstrict
        omega

/-- **The bound of a score.** A request of `n` segments scores at most `1 + 3 * n`, so that a score
of 32 bits is counted exactly, without a sum that does not fit, for up to 1431655764 segments. Just
the patterns that repeat the request, and end there or go on to an array, have that score. The
length of a pattern without its array, which the strict mode asks for, is never negative. -/
theorem score_bound (p : Pattern) (options : ScoreOptions) (path : String) :
    let request := Path.segments path
    p.score options path ≤ 1 + 3 * request.length ∧
    (request.length ≤ 1431655764 →
      Counts (p.score32 options request) (p.score options path)) ∧
    (p.score options path = 1 + 3 * request.length ↔
      (∀ i < request.length, ∃ text v, p.matchable[i]? = some (.literal text) ∧
        request[i]? = some v ∧ literalMatches options.caseSensitive text v = true) ∧
      (p.matchable.length = request.length ∨ p.hasArray = true ∧
        (options.mode = .strict →
          ∃ t, p.matchable[request.length]? = some (.typed (.array t))))) ∧
    subtractLength p.matchable.length p.hasArray.toNat = .ok p.fixed.length := by
  intro request
  refine ⟨scoreSegments_le options p request, fun hcount => ?_,
    scoreSegments_eq_top_iff_matchable, p.subtractLength_matchable⟩
  apply counts_score32
  omega

end Pattern

namespace Sample

/-- The pattern of `/a/{Double}/{Integer...}`. -/
def further : Pattern :=
  ⟨[.literal "a", .placeholder (.binary .double) ⟨"{Double}", none⟩],
    some ⟨.whole .integer, "{Integer...}", none⟩⟩

end Sample

/-- A pattern that is longer than the request has the highest score, in the lenient mode only. -/
theorem Pattern.score_bound_sample :
    (Path.segments "/A").length ≤ 1431655764 ∧
    Counts (Sample.further.score32 {} (Path.segments "/A")) 4 ∧
    Sample.further.score {} "/A" = 1 + 3 * (Path.segments "/A").length ∧
    Sample.further.score ⟨.strict, false⟩ "/A" ≠ 1 + 3 * (Path.segments "/A").length := by
  have hcount : (Path.segments "/A").length ≤ 1431655764 := by decide
  have hscore : Sample.further.score {} "/A" = 4 := by decide
  obtain ⟨-, hexact, -, -⟩ := Pattern.score_bound Sample.further {} "/A"
  obtain ⟨-, -, htop, -⟩ := Pattern.score_bound Sample.further ⟨.strict, false⟩ "/A"
  refine ⟨hcount, hscore ▸ hexact hcount, by decide, fun hstrict => ?_⟩
  rcases (htop.1 hstrict).2 with hlength | ⟨-, harray⟩
  · exact absurd hlength (by decide)
  · obtain ⟨t, ht⟩ := harray rfl
    have hnext : Sample.further.matchable[(Path.segments "/A").length]? =
        some (.typed (.scalar (.binary .double))) := by decide
    rw [hnext] at ht
    cases ht

end TypedRouting
