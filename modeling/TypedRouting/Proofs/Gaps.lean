import TypedRouting.Proofs.Fitting
import TypedRouting.Proofs.Leftmost

/-!
# Gaps in a request

A placeholder for one value needs a segment of the request at its place, and one that converts to
its type. Where there is none the request has a gap.

* `bindFixed_eq_error_iff`: a row of fixed segments has no arguments for a request just where the
  request has a gap, and the first of them decides the error.
* `Pattern.bind_eq_error_iff`: the same holds of a whole pattern for every request that scores. The
  items of the tail convert then, and a segment is missing only where there is a tail.
-/

namespace TypedRouting

/-! ### Gaps -/

/-- The segment at place `i` is a placeholder of type `t`, and the request has no segment at this
place or one that does not convert. -/
def Gap (ss : List Segment) (request : List String) (i : Nat) (t : ScalarType) : Prop :=
  ∃ wording, ss[i]? = some (.placeholder t wording) ∧
    ∀ v, request[i]? = some v → t.accepts v = false

section Rows

variable {s : Segment} {ss : List Segment} {request : List String} {i : Nat} {t u : ScalarType}

theorem Gap.lt_length (h : Gap ss request i t) : i < ss.length := by
  obtain ⟨wording, hs, -⟩ := h
  exact (List.getElem?_eq_some_iff.1 hs).1

/-- A place has a gap of one type only. -/
theorem Gap.type_unique (h : Gap ss request i t) (h' : Gap ss request i u) : t = u := by
  obtain ⟨wording, hs, -⟩ := h
  obtain ⟨wording', hs', -⟩ := h'
  cases hs.symm.trans hs'
  rfl

theorem not_gap_nil : ¬Gap [] request i t := by
  rintro ⟨wording, hs, -⟩
  cases hs

theorem gap_zero_iff :
    Gap (s :: ss) request 0 t ↔
      (∃ wording, s = .placeholder t wording) ∧ ∀ v ∈ request.head?, t.accepts v = false := by
  simp [Gap, List.head?_eq_getElem?]

theorem gap_succ_iff : Gap (s :: ss) request (i + 1) t ↔ Gap ss request.tail i t := by
  simp [Gap]

/-- A gap in front is the first. -/
theorem leftmost_gap_of_gap (h : Gap (s :: ss) request 0 u) :
    Leftmost (Gap (s :: ss) request) i t ↔ i = 0 ∧ t = u :=
  Leftmost.iff_of_zero h fun _ hv => hv.type_unique h

/-- Without a gap in front, the first gap is that of the rest. -/
theorem leftmost_gap_of_not_gap (h : ∀ u, ¬Gap (s :: ss) request 0 u) :
    Leftmost (Gap (s :: ss) request) i t ↔
      ∃ j, i = j + 1 ∧ Leftmost (Gap ss request.tail) j t := by
  have hrest : (fun j => Gap (s :: ss) request (j + 1)) = Gap ss request.tail :=
    funext fun j => funext fun u => propext gap_succ_iff
  rw [Leftmost.iff_of_not_zero h, hrest]

end Rows

/-! ### The error of a gap -/

/-- The error at a place for what the request has there: no segment, or one that does not convert
to the type. -/
def ScalarType.Faults (t : ScalarType) (place : Nat) : Option String → InvocationError → Prop
  | none, e => e = .missingSegment place t
  | some v, e => ∃ d, t.convert v = .error d ∧ e = .conversion d

/-- The row has a first gap, and the error is the one at its place. Places count from `index`. -/
def FailsFirst (index : Nat) (ss : List Segment) (request : List String) (e : InvocationError) :
    Prop :=
  ∃ i t, Leftmost (Gap ss request) i t ∧ t.Faults (index + i) request[i]? e

section Binding

variable {s : Segment} {ss : List Segment} {request : List String} {index : Nat} {t : ScalarType}
  {v : String} {e : InvocationError}

theorem ScalarType.accepts_eq_false_iff :
    t.accepts v = false ↔ ∃ d, t.convert v = .error d := by
  unfold accepts
  cases t.convert v <;> simp [Except.isOk, Except.toBool]

theorem failsFirst_of_gap (h : Gap (s :: ss) request 0 t) :
    FailsFirst index (s :: ss) request e ↔ t.Faults index request.head? e := by
  simp [FailsFirst, leftmost_gap_of_gap h, List.head?_eq_getElem?]

theorem failsFirst_of_not_gap (h : ∀ u, ¬Gap (s :: ss) request 0 u) :
    FailsFirst index (s :: ss) request e ↔ FailsFirst (index + 1) ss request.tail e := by
  constructor
  · rintro ⟨i, t, hfirst, hfault⟩
    obtain ⟨j, rfl, hrest⟩ := (leftmost_gap_of_not_gap h).1 hfirst
    refine ⟨j, t, hrest, ?_⟩
    rwa [List.getElem?_tail, Nat.add_assoc, Nat.add_comm 1]
  · rintro ⟨j, t, hfirst, hfault⟩
    refine ⟨j + 1, t, (leftmost_gap_of_not_gap h).2 ⟨j, rfl, hfirst⟩, ?_⟩
    rwa [List.getElem?_tail, Nat.add_assoc, Nat.add_comm 1] at hfault

/-- A row of fixed segments fails with the error of its first gap. -/
theorem bindFixed_eq_error_iff :
    bindFixed index ss request = .error e ↔ FailsFirst index ss request e := by
  induction ss generalizing index request with
  | nil =>
    refine iff_of_false nofun ?_
    rintro ⟨i, t, hfirst, -⟩
    exact not_gap_nil hfirst.holds
  | cons s ss ih =>
    cases s with
    | literal text =>
      have hnone : ∀ u, ¬Gap (.literal text :: ss) request 0 u := by simp [gap_zero_iff]
      rw [failsFirst_of_not_gap hnone, ← ih]
      rfl
    | placeholder t wording =>
      cases request with
      | nil =>
        have hgap : Gap (.placeholder t wording :: ss) [] 0 t := by simp [gap_zero_iff]
        rw [failsFirst_of_gap hgap]
        simp [bindFixed, ScalarType.Faults, eq_comm]
      | cons v vs =>
        cases hv : t.convert v with
        | error d =>
          have hgap : Gap (.placeholder t wording :: ss) (v :: vs) 0 t := by
            simp [gap_zero_iff, ScalarType.accepts_eq_false_iff, hv]
          rw [failsFirst_of_gap hgap]
          simp [bindFixed, ScalarType.bindText, ScalarType.Faults, hv, eq_comm]
        | ok x =>
          have haccepts : t.accepts v = true := ScalarType.accepts_iff.2 ⟨x, hv⟩
          have hnone : ∀ u, ¬Gap (.placeholder t wording :: ss) (v :: vs) 0 u := by
            simp [gap_zero_iff, haccepts]
          rw [failsFirst_of_not_gap hnone, List.tail_cons, ← ih]
          simp [bindFixed, ScalarType.bindText, hv]

end Binding

/-! ### Requests that score -/

namespace Pattern

variable {p : Pattern} {request : List String} {options : ScoreOptions} {e : InvocationError}

theorem bindSegments_eq_error_iff :
    p.bindSegments request = .error e ↔
      bindFixed 0 p.fixed request = .error e ∨
        (∃ fixed, bindFixed 0 p.fixed request = .ok fixed) ∧ ∃ tail, p.tail = some tail ∧
          bindItems tail.element (request.drop p.fixed.length) = .error e := by
  unfold bindSegments
  cases bindFixed 0 p.fixed request with
  | error d => simp
  | ok fixed => cases p.tail <;> simp [Tail.bind]

/-- The items of the tail of a request that scores convert, all of them. -/
theorem exists_convertsAll_of_score (h : 0 < p.scoreSegments options request) {tail : Tail}
    (htail : p.tail = some tail) :
    ∃ xs, tail.element.ConvertsAll (request.drop p.fixed.length) xs := by
  obtain ⟨n, hn⟩ := Nat.exists_eq_succ_of_ne_zero (Nat.pos_iff_ne_zero.1 h)
  obtain ⟨-, -, points, -, hpoints, -⟩ := scoreSegments_eq_succ_iff.1 hn
  rw [tailCredit?, htail] at hpoints
  exact Tail.isSome_credit?_iff.1 (Option.isSome_of_eq_some hpoints)

/-- Without a tail, a request that scores has as many segments as the pattern. -/
theorem length_eq_of_score (h : 0 < p.scoreSegments options request) (htail : p.tail = none) :
    request.length = p.fixed.length := by
  obtain ⟨n, hn⟩ := Nat.exists_eq_succ_of_ne_zero (Nat.pos_iff_ne_zero.1 h)
  obtain ⟨hadmits, -⟩ := scoreSegments_eq_succ_iff.1 hn
  simpa [admits, htail] using hadmits

/-- A request that scores fails with the error of its first gap, and not in the tail. -/
theorem bindSegments_eq_error_iff_of_score (h : 0 < p.scoreSegments options request) :
    p.bindSegments request = .error e ↔ FailsFirst 0 p.fixed request e := by
  rw [bindSegments_eq_error_iff, ← bindFixed_eq_error_iff]
  refine or_iff_left ?_
  rintro ⟨-, tail, htail, hitems⟩
  obtain ⟨xs, hxs⟩ := exists_convertsAll_of_score h htail
  rw [bindItems_eq_ok.2 ⟨xs, hxs, rfl⟩] at hitems
  cases hitems

/-- The fault at a place of the pattern, for a request that scores. -/
theorem faults_iff_of_score (h : 0 < p.scoreSegments options request) {i : Nat} {t : ScalarType}
    (hi : i < p.fixed.length) :
    t.Faults i request[i]? e ↔
      (∃ v d, request[i]? = some v ∧ t.convert v = .error d ∧ e = .conversion d) ∨
        request.length ≤ i ∧ p.hasArray = true ∧ e = .missingSegment i t := by
  rcases Nat.lt_or_ge i request.length with hlt | hge
  · have hsome : request[i]? = some request[i] := List.getElem?_eq_getElem hlt
    simp [ScalarType.Faults, hsome, Nat.not_le.2 hlt]
  · have harray : p.hasArray = true := by
      by_contra hno
      have htail : p.tail = none := by simpa [hasArray] using hno
      have hlength := length_eq_of_score h htail
      omega
    simp [ScalarType.Faults, hge, harray]

/-- **Gaps.** A request that scores, in either mode, has no arguments just where it has a gap. The
error is that of the first gap: its segment does not convert, or there is none, which takes a
pattern with a tail. The items of the tail all convert. -/
theorem bind_eq_error_iff {path : String} (h : 0 < p.score options path) :
    let request := Path.segments path
    (∀ e, p.bind path = .error e ↔ ∃ i t, Leftmost (Gap p.fixed request) i t ∧
      ((∃ v d, request[i]? = some v ∧ t.convert v = .error d ∧ e = .conversion d) ∨
        request.length ≤ i ∧ p.hasArray = true ∧ e = .missingSegment i t)) ∧
    ∀ tail, p.tail = some tail → ∀ v ∈ request.drop p.fixed.length,
      tail.element.accepts v = true := by
  intro request
  refine ⟨fun e => (bindSegments_eq_error_iff_of_score h).trans ?_, fun tail htail => ?_⟩
  · unfold FailsFirst
    simp only [Nat.zero_add]
    refine exists_congr fun i => exists_congr fun t => and_congr_right fun hfirst => ?_
    exact faults_iff_of_score h hfirst.holds.lt_length
  · exact ScalarType.exists_convertsAll_iff.1 (exists_convertsAll_of_score h htail)

end Pattern

namespace Sample

/-- The pattern of `/a/{Integer}/{Long}/{Byte...}`. -/
def numbers : Pattern :=
  ⟨[.literal "a", .placeholder (.whole .integer) ⟨"{Integer}", none⟩,
    .placeholder (.whole .long) ⟨"{Long}", none⟩], some ⟨.whole .byte, "{Byte...}", none⟩⟩

end Sample

/-- One segment does not convert, and the next is missing. -/
theorem Pattern.bind_eq_error_iff_sample :
    0 < Sample.numbers.score {} "/a/x" ∧
    Leftmost (Gap Sample.numbers.fixed (Path.segments "/a/x")) 1 (.whole .integer) ∧
    Sample.numbers.bind "/a/x" =
      .error (.conversion ⟨.whole .integer, "x", .whole .invalidDigit⟩) := by
  have hscore : 0 < Sample.numbers.score {} "/a/x" := by decide
  have hgap : Gap Sample.numbers.fixed (Path.segments "/a/x") 1 (.whole .integer) := by
    refine ⟨⟨"{Integer}", none⟩, rfl, ?_⟩
    rintro _ ⟨⟩
    decide
  have hfirst : Leftmost (Gap Sample.numbers.fixed (Path.segments "/a/x")) 1 (.whole .integer) := by
    refine ⟨hgap, ?_⟩
    rintro (_ | j) u hu
    · obtain ⟨wording, hliteral, -⟩ := hu
      cases hliteral
    · omega
  refine ⟨hscore, hfirst, ((Pattern.bind_eq_error_iff hscore).1 _).2 ⟨1, _, hfirst, .inl ?_⟩⟩
  exact ⟨"x", _, rfl, rfl, rfl⟩

end TypedRouting
