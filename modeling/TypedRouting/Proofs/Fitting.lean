import TypedRouting.Proofs.Binding
import TypedRouting.Proofs.ScoreBound

/-!
# Requests that fit a pattern

`Pattern.Fits` says that the segments of a request fill a pattern one after the other and which
arguments they make: a literal is matched, a placeholder takes one segment that converts and a tail
takes all that are left. Neither the score nor the binding of arguments is used to state it.

* `Pattern.exists_fits_iff`: some arguments fit just where the strict score is not zero, and then
  the score is the same in either mode (`Pattern.Fits.score`).
* `Pattern.fits_iff_bind`: the arguments that fit are those that are bound, for a request that spans
  the pattern and spells its literals.
-/

namespace TypedRouting

theorem Tail.isSome_credit?_iff {tail : Tail} {items : List String} :
    (tail.credit? items).isSome ↔ ∃ xs, tail.element.ConvertsAll items xs := by
  rw [ScalarType.exists_convertsAll_iff, credit?]
  split
  · next hempty =>
    obtain rfl : items = [] := by simpa using hempty
    simp
  · split
    · next hall => simpa using hall
    · next hall => simpa using hall

namespace Pattern

/-- The segments fill the pattern and make these arguments. -/
inductive Fits (caseSensitive : Bool) : Pattern → List String → List Value → Prop
  | nil : Fits caseSensitive ⟨[], none⟩ [] []
  | tail {tail : Tail} {items : List String} {xs : List tail.element.Carrier}
      (hitems : tail.element.ConvertsAll items xs) :
      Fits caseSensitive ⟨[], some tail⟩ items [.array tail.element (xs.map (.scalar tail.element))]
  | literal {text v : String} {ss : List Segment} {tail : Option Tail} {vs : List String}
      {args : List Value} (hmatch : literalMatches caseSensitive text v = true)
      (hrest : Fits caseSensitive ⟨ss, tail⟩ vs args) :
      Fits caseSensitive ⟨.literal text :: ss, tail⟩ (v :: vs) args
  | placeholder {t : ScalarType} {wording : Wording} {v : String} {x : t.Carrier}
      {ss : List Segment} {tail : Option Tail} {vs : List String} {args : List Value}
      (hconvert : t.convert v = .ok x) (hrest : Fits caseSensitive ⟨ss, tail⟩ vs args) :
      Fits caseSensitive ⟨.placeholder t wording :: ss, tail⟩ (v :: vs) (.scalar t x :: args)

variable {caseSensitive : Bool} {s : Segment} {ss : List Segment} {tail : Option Tail}
  {v : String} {vs : List String} {p : Pattern} {request : List String} {args : List Value}

/-! ### Scores -/

theorem admits_cons (mode : ScoringMode) :
    admits ⟨s :: ss, tail⟩ mode (v :: vs).length = admits ⟨ss, tail⟩ mode vs.length := by
  cases tail <;> cases mode <;> simp [admits]

/-- A segment that earns its points adds them to the score of what follows, in either mode. -/
theorem scoreSegments_cons {mode : ScoringMode} {points n : Nat}
    (hcredit : s.credit? caseSensitive v = some points)
    (hrest : scoreSegments ⟨mode, caseSensitive⟩ ⟨ss, tail⟩ vs = n + 1) :
    scoreSegments ⟨mode, caseSensitive⟩ ⟨s :: ss, tail⟩ (v :: vs) = points + n + 1 := by
  obtain ⟨hadmits, fixed, items, hfixed, hitems, rfl⟩ := scoreSegments_eq_succ_iff.1 hrest
  refine scoreSegments_eq_succ_iff.2
    ⟨(admits_cons mode).trans hadmits, points + fixed, items, ?_, hitems, by omega⟩
  exact fixedCredit?_cons_eq_some.2 ⟨fun _ => by simp [hcredit], fixed, hfixed, by simp [hcredit]⟩

/-- In the strict mode a score comes from a segment that earns points and a score of the rest. -/
theorem score_of_strict_cons
    (h : 0 < scoreSegments ⟨.strict, caseSensitive⟩ ⟨s :: ss, tail⟩ (v :: vs)) :
    (s.credit? caseSensitive v).isSome ∧
      0 < scoreSegments ⟨.strict, caseSensitive⟩ ⟨ss, tail⟩ vs := by
  obtain ⟨n, hn⟩ := Nat.exists_eq_succ_of_ne_zero (Nat.pos_iff_ne_zero.1 h)
  obtain ⟨hadmits, fixed, items, hfixed, hitems, -⟩ := scoreSegments_eq_succ_iff.1 hn
  obtain ⟨hcredit, rest, hrest, -⟩ := fixedCredit?_cons_eq_some.1 hfixed
  have hscore : scoreSegments ⟨.strict, caseSensitive⟩ ⟨ss, tail⟩ vs = rest + items + 1 :=
    scoreSegments_eq_succ_iff.2
      ⟨(admits_cons .strict).symm.trans hadmits, rest, items, hrest, hitems, rfl⟩
  exact ⟨hcredit rfl, by omega⟩

/-- What fits is worth the same, and not nothing, in either mode. -/
theorem Fits.score (h : p.Fits caseSensitive request args) :
    ∃ n, ∀ mode, p.scoreSegments ⟨mode, caseSensitive⟩ request = n + 1 := by
  induction h with
  | nil =>
    exact ⟨0, fun mode => by simp [scoreSegments, admits, fixedCredit?, tailCredit?, baseScore]⟩
  | @tail tail items xs hitems =>
    obtain ⟨n, hn⟩ := Option.isSome_iff_exists.1 (Tail.isSome_credit?_iff.2 ⟨xs, hitems⟩)
    refine ⟨n, fun mode => scoreSegments_eq_succ_iff.2 ⟨?_, 0, n, rfl, hn, Nat.zero_add n⟩⟩
    cases mode <;> simp [admits]
  | @literal text v ss tail vs args hmatch hrest ih =>
    obtain ⟨n, hn⟩ := ih
    have hcredit : (Segment.literal text).credit? caseSensitive v = some literalScore := by
      simp [Segment.credit?, hmatch]
    exact ⟨literalScore + n, fun mode => scoreSegments_cons hcredit (hn mode)⟩
  | @placeholder t wording v x ss tail vs args hconvert hrest ih =>
    obtain ⟨n, hn⟩ := ih
    have haccepts := ScalarType.accepts_iff.2 ⟨x, hconvert⟩
    have hcredit : (Segment.placeholder t wording).credit? caseSensitive v =
        some (convertibleScore + t.bonus) := by
      simp [Segment.credit?, haccepts]
    exact ⟨convertibleScore + t.bonus + n, fun mode => scoreSegments_cons hcredit (hn mode)⟩

theorem exists_fits_of_strict (h : 0 < p.scoreSegments ⟨.strict, caseSensitive⟩ request) :
    ∃ args, p.Fits caseSensitive request args := by
  obtain ⟨ss, tail⟩ := p
  induction ss generalizing request with
  | nil =>
    obtain ⟨n, hn⟩ := Nat.exists_eq_succ_of_ne_zero (Nat.pos_iff_ne_zero.1 h)
    obtain ⟨hadmits, -, items, -, hitems, -⟩ := scoreSegments_eq_succ_iff.1 hn
    cases tail with
    | none =>
      obtain rfl : request = [] := by simpa [admits] using hadmits
      exact ⟨_, .nil⟩
    | some tail =>
      obtain ⟨xs, hxs⟩ := Tail.isSome_credit?_iff.1 (Option.isSome_of_eq_some hitems)
      exact ⟨_, .tail hxs⟩
  | cons s ss ih =>
    cases request with
    | nil =>
      -- the strict mode asks for a segment
      cases tail <;> simp [scoreSegments, admits] at h
    | cons v vs =>
      obtain ⟨hcredit, hrest⟩ := score_of_strict_cons h
      obtain ⟨args, hargs⟩ := ih hrest
      cases s with
      | literal text => exact ⟨args, .literal (by simpa [Segment.credit?] using hcredit) hargs⟩
      | placeholder t wording =>
        have haccepts : t.accepts v = true := by simpa [Segment.credit?] using hcredit
        obtain ⟨x, hx⟩ := ScalarType.accepts_iff.1 haccepts
        exact ⟨_, .placeholder hx hargs⟩

theorem exists_fits_iff :
    (∃ args, p.Fits caseSensitive request args) ↔
      0 < p.scoreSegments ⟨.strict, caseSensitive⟩ request := by
  refine ⟨?_, exists_fits_of_strict⟩
  rintro ⟨args, hargs⟩
  obtain ⟨n, hn⟩ := hargs.score
  rw [hn]
  exact Nat.succ_pos n

/-! ### Arguments -/

/-- A request of `count` segments has one for each segment of the pattern, and more only where the
pattern ends in an array. -/
def Spans (p : Pattern) (count : Nat) : Prop :=
  if p.hasArray then p.fixed.length ≤ count else count = p.fixed.length

/-- Every literal of the pattern is matched by the segment of the request at its place. -/
def Spells (caseSensitive : Bool) (p : Pattern) (request : List String) : Prop :=
  ∀ (i : Nat) (text : String), p.fixed[i]? = some (.literal text) →
    ∃ v, request[i]? = some v ∧ literalMatches caseSensitive text v = true

theorem spans_cons : Spans ⟨s :: ss, tail⟩ (v :: vs).length ↔ Spans ⟨ss, tail⟩ vs.length := by
  cases tail <;> simp [Spans, hasArray]

theorem spells_cons :
    Spells caseSensitive ⟨s :: ss, tail⟩ (v :: vs) ↔
      (∀ text, s = .literal text → literalMatches caseSensitive text v = true) ∧
      Spells caseSensitive ⟨ss, tail⟩ vs := by
  constructor
  · intro h
    refine ⟨fun text hs => ?_, fun i text hi => h (i + 1) text hi⟩
    obtain ⟨w, hw, hmatch⟩ := h 0 text (congrArg some hs)
    obtain rfl : v = w := by simpa using hw
    exact hmatch
  · rintro ⟨hs, hrest⟩ i text hi
    cases i with
    | zero => exact ⟨v, rfl, hs text (by simpa using hi)⟩
    | succ i => exact hrest i text hi

theorem Fits.bind (h : p.Fits caseSensitive request args) :
    p.Spans request.length ∧ p.Spells caseSensitive request ∧
      p.bindSegments request = .ok args := by
  induction h with
  | nil => exact ⟨by simp [Spans, hasArray], by simp [Spells], rfl⟩
  | tail hitems =>
    refine ⟨by simp [Spans, hasArray], by simp [Spells], bindSegments_eq_ok.2 ?_⟩
    exact ⟨[], rfl, .inr ⟨_, _, rfl, bindItems_eq_ok.2 ⟨_, hitems, rfl⟩, rfl⟩⟩
  | literal hmatch _ ih =>
    obtain ⟨hspans, hspells, hbind⟩ := ih
    refine ⟨spans_cons.2 hspans, spells_cons.2 ⟨?_, hspells⟩, bindSegments_literal_cons.2 hbind⟩
    rintro _ ⟨⟩
    exact hmatch
  | placeholder hconvert _ ih =>
    obtain ⟨hspans, hspells, hbind⟩ := ih
    refine ⟨spans_cons.2 hspans, spells_cons.2 ⟨by simp, hspells⟩, ?_⟩
    exact bindSegments_placeholder_cons.2 ⟨_, _, hconvert, hbind, rfl⟩

theorem fits_of_bind (hspans : p.Spans request.length) (hspells : p.Spells caseSensitive request)
    (hbind : p.bindSegments request = .ok args) : p.Fits caseSensitive request args := by
  obtain ⟨ss, tail⟩ := p
  induction ss generalizing request args with
  | nil =>
    obtain ⟨fixed, hfixed, ⟨rfl, rfl⟩ | ⟨array, items, rfl, hitems, rfl⟩⟩ :=
      bindSegments_eq_ok.1 hbind
    · obtain rfl : request = [] := by simpa [Spans, hasArray] using hspans
      cases hfixed
      exact .nil
    · cases hfixed
      obtain ⟨xs, hxs, rfl⟩ := bindItems_eq_ok.1 hitems
      exact .tail hxs
  | cons s ss ih =>
    cases request with
    | nil => cases tail <;> simp [Spans, hasArray] at hspans
    | cons v vs =>
      rw [spans_cons] at hspans
      obtain ⟨hs, hrest⟩ := spells_cons.1 hspells
      cases s with
      | literal text =>
        exact .literal (hs text rfl) (ih hspans hrest (bindSegments_literal_cons.1 hbind))
      | placeholder t wording =>
        obtain ⟨x, rest, hx, hargs, rfl⟩ := bindSegments_placeholder_cons.1 hbind
        exact .placeholder hx (ih hspans hrest hargs)

theorem fits_iff_bind :
    p.Fits caseSensitive request args ↔
      p.Spans request.length ∧ p.Spells caseSensitive request ∧
        p.bindSegments request = .ok args :=
  ⟨Fits.bind, fun ⟨hspans, hspells, hbind⟩ => fits_of_bind hspans hspells hbind⟩

end Pattern
end TypedRouting
