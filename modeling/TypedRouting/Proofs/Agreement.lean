import TypedRouting.Proofs.Fitting

/-!
# Scores and arguments

Scoring and binding go through a request independently of one another, and so do the two modes of
scoring. They agree through `Pattern.Fits`.

* `Pattern.score_strict_iff`: the strict score is not zero just where the request spans the pattern,
  spells its literals and has arguments; and then it is the lenient score.
* `Pattern.bindSegments_of_strict`: a request that scores in the strict mode has arguments.
-/

namespace TypedRouting

namespace Pattern

variable {p : Pattern} {request : List String}

theorem scoreSegments_strict_pos_iff {caseSensitive : Bool} :
    0 < p.scoreSegments ⟨.strict, caseSensitive⟩ request ↔
      p.Spans request.length ∧ p.Spells caseSensitive request ∧
        ∃ args, p.bindSegments request = .ok args := by
  rw [← exists_fits_iff]
  simp only [fits_iff_bind, exists_and_left]

/-- **Agreement.** A request scores in the strict mode just where it spans the pattern, spells its
literals and has arguments; and the score is then the one of the lenient mode. -/
theorem score_strict_iff (p : Pattern) (caseSensitive : Bool) (path : String) :
    (0 < p.score ⟨.strict, caseSensitive⟩ path ↔
      p.Spans (Path.segments path).length ∧ p.Spells caseSensitive (Path.segments path) ∧
        ∃ args, p.bind path = .ok args) ∧
    (0 < p.score ⟨.strict, caseSensitive⟩ path →
      p.score ⟨.strict, caseSensitive⟩ path = p.score ⟨.lenient, caseSensitive⟩ path) := by
  refine ⟨scoreSegments_strict_pos_iff, fun hpos => ?_⟩
  obtain ⟨args, hargs⟩ := exists_fits_of_strict hpos
  obtain ⟨n, hn⟩ := hargs.score
  exact (hn .strict).trans (hn .lenient).symm

/-- A literal in another case, and two numbers for an array. -/
theorem score_strict_iff_sample :
    let p : Pattern := ⟨[.literal "total"], some ⟨.whole .long, "{Long...}", none⟩⟩
    let path := "/Total/1/2"
    0 < p.score ⟨.strict, false⟩ path ∧ p.Spans (Path.segments path).length ∧
      p.Spells false (Path.segments path) ∧ (∃ args, p.bind path = .ok args) ∧
      p.score ⟨.strict, false⟩ path = p.score ⟨.lenient, false⟩ path := by
  intro p path
  have hpos : 0 < p.score ⟨.strict, false⟩ path := by decide
  obtain ⟨hiff, hmodes⟩ := Pattern.score_strict_iff p false path
  obtain ⟨hspans, hspells, hbind⟩ := hiff.1 hpos
  exact ⟨hpos, hspans, hspells, hbind, hmodes hpos⟩

end Pattern
end TypedRouting
