import TypedRouting.Proofs.Outcome
import TypedRouting.Proofs.ScoreWidth
import TypedRouting.Routing.Snapshot

/-!
# Searches counted in 32 bits

The scores of `Snapshot.scoreAll` and `Snapshot.find` have no limit. Here each route's score is
counted in 32 bits as in `Pattern.score32`, and a count that comes to a fault ends the search.

* `Snapshot.scoreAll32_eq`, `Snapshot.find32_eq`: for requests of at most 1431655764 segments, and
  for all requests where the options allow no more, no search ends in a fault and the results are
  the same. What is proved of the scores and of the route that is found holds of the counts then.
-/

namespace TypedRouting
namespace Snapshot

variable {ρ ω : Type}

/-! ### Searches -/

/-- A route with its score for the segments of a request, counted in 32 bits. -/
def matchOf32 (s : Snapshot ρ ω) (request : List String) (r : Route) :
    Except ArithmeticFault RouteMatch :=
  (r.pattern.score32 s.options.scoring request).map fun score => ⟨r.id, score.toNat⟩

/-- The scores of all routes, in the order of registration. -/
def scoreAll32 (s : Snapshot ρ ω) (path : String) : Except ArithmeticFault (List RouteMatch) :=
  let request := Path.segments path
  if s.tooLong request then .ok (s.routes.map (⟨·.id, 0⟩)) else s.routes.mapM (s.matchOf32 request)

/-- The better of a match so far and a route. -/
def better32 (s : Snapshot ρ ω) (request : List String) (best : Option RouteMatch) (r : Route) :
    Except ArithmeticFault (Option RouteMatch) :=
  (s.matchOf32 request r).map (s.options.tieBreak.better best)

/-- The best route for a request, if any matches. -/
def find32 (s : Snapshot ρ ω) (path : String) : Except ArithmeticFault (Option RouteMatch) :=
  let request := Path.segments path
  if s.tooLong request then .ok none else s.routes.foldlM (s.better32 request) none

/-! ### The counts are the scores -/

/-- The highest score of a request fits into 32 bits, unless the request is not scored at all. -/
def ScoresFit (s : Snapshot ρ ω) (request : List String) : Prop :=
  s.options.maxSegments ≤ 1431655764 ∨ request.length ≤ 1431655764

variable {s : Snapshot ρ ω} {request : List String} {path : String}

theorem ScoresFit.length_le (h : s.ScoresFit request) (hlong : ¬s.tooLong request = true) :
    request.length ≤ 1431655764 := by
  have hmax : request.length ≤ s.options.maxSegments := by simpa [tooLong] using hlong
  unfold ScoresFit at h
  omega

theorem matchOf32_eq (h : request.length ≤ 1431655764) (r : Route) :
    s.matchOf32 request r = .ok (s.matchOf request r) := by
  obtain ⟨score, hcount, hscore⟩ : Counts (r.pattern.score32 s.options.scoring request)
      (r.pattern.scoreSegments s.options.scoring request) := Pattern.counts_score32 (by omega)
  rw [matchOf32, hcount, Outcome.map_ok, hscore, matchOf]

theorem better32_eq (h : request.length ≤ 1431655764) (best : Option RouteMatch) (r : Route) :
    s.better32 request best r =
      .ok (s.options.tieBreak.better best (s.matchOf request r)) := by
  rw [better32, matchOf32_eq h, Outcome.map_ok]

theorem scoreAll32_eq (h : s.ScoresFit (Path.segments path)) :
    s.scoreAll32 path = .ok (s.scoreAll path) := by
  unfold scoreAll32 scoreAll
  dsimp only
  split
  · rfl
  · next hlong =>
    rw [funext (matchOf32_eq (h.length_le hlong))]
    exact List.mapM_pure

theorem find32_eq (h : s.ScoresFit (Path.segments path)) :
    s.find32 path = .ok (s.find path) := by
  unfold find32 find findSegments
  dsimp only
  split
  · rfl
  · next hlong =>
    have hstep := better32_eq (s := s) (h.length_le hlong)
    rw [funext fun best => funext (hstep best)]
    exact List.foldlM_pure

end Snapshot
end TypedRouting
