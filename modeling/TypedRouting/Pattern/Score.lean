import TypedRouting.Pattern.Basic
import TypedRouting.Scalar.Conversion
import TypedRouting.Text.Lowercase

/-!
# Scores

The score of a pattern for a request says how specific a match it is; zero is no match.
A pattern of the right length starts at one point. A literal that the request repeats is worth
three, a value that converts one, and one more if its type has no fractions. In the lenient mode
a fixed segment that fails just earns nothing; in the strict mode it ends the match. An item of
the tail that does not convert always does.

Scores have no limit here. `Pattern.counts_score32` and `Snapshot.find32_eq` say for which requests
32 bits hold them.
-/

namespace TypedRouting

/-- What a fixed segment that fails does to the match. -/
inductive ScoringMode
  | lenient
  | strict
  deriving DecidableEq, Repr

/-- How requests are scored. -/
structure ScoreOptions where
  mode : ScoringMode := .lenient
  caseSensitive : Bool := false
  deriving DecidableEq, Repr

/-! ### The points -/

def baseScore : Nat := 1

def literalScore : Nat := 3

def convertibleScore : Nat := 1

/-- The points of a type without fractions. -/
def ScalarType.bonus (t : ScalarType) : Nat := if t.isFractional then 0 else 1

/-- A literal matches a segment of a request. Where case does not matter the literal is in
lower case already. -/
def literalMatches (caseSensitive : Bool) (literal value : String) : Bool :=
  if caseSensitive then literal == value else Text.lowersTo value literal

/-- The points of a fixed segment, or none where the request fails it. -/
def Segment.credit? (caseSensitive : Bool) : Segment → String → Option Nat
  | .literal text, value =>
    if literalMatches caseSensitive text value then some literalScore else none
  | .placeholder t _, value => if t.accepts value then some (convertibleScore + t.bonus) else none

/-- The points of a row of fixed segments, as far as the request goes. -/
def fixedCredit? (options : ScoreOptions) : List Segment → List String → Option Nat
  | s :: ss, v :: vs =>
    match s.credit? options.caseSensitive v, options.mode with
    | none, .strict => none
    | credit, _ => (fixedCredit? options ss vs).map (credit.getD 0 + ·)
  | _, _ => some 0

/-- The points of the tail for the segments that are left to it, or none where one of them does
not convert. No segment earns no points, not even the bonus. -/
def Tail.credit? (tail : Tail) (items : List String) : Option Nat :=
  if items.isEmpty then some 0
  else if items.all tail.element.accepts then
    some (tail.element.bonus + items.length * convertibleScore)
  else none

namespace Pattern

/-- A request of `count` segments may match the pattern. -/
def admits (p : Pattern) (mode : ScoringMode) (count : Nat) : Bool :=
  match p.tail, mode with
  | none, _ => count == p.fixed.length
  | some _, .strict => p.fixed.length ≤ count
  | some _, .lenient => true

/-- The points of the tail, if there is one. -/
def tailCredit? (p : Pattern) (request : List String) : Option Nat :=
  match p.tail with
  | none => some 0
  | some tail => tail.credit? (request.drop p.fixed.length)

/-- The score of a pattern for the segments of a request. -/
def scoreSegments (options : ScoreOptions) (p : Pattern) (request : List String) : Nat :=
  if p.admits options.mode request.length then
    match fixedCredit? options p.fixed request, p.tailCredit? request with
    | some fixed, some tail => baseScore + fixed + tail
    | _, _ => 0
  else 0

def score (options : ScoreOptions) (p : Pattern) (request : String) : Nat :=
  p.scoreSegments options (Path.segments request)

def scoreAll (options : ScoreOptions) (patterns : List Pattern) (request : String) :
    List (Pattern × Nat) :=
  patterns.map fun p => (p, p.score options request)

end Pattern
end TypedRouting
