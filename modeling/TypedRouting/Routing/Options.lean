import TypedRouting.Pattern.Declaration
import TypedRouting.Pattern.Score

/-!
# Router options

The options of a router decide how declared paths are read, how requests are scored, and which
of several routes with the highest score is taken.
-/

namespace TypedRouting

/-- The route that is taken among those of the highest score. -/
inductive TieBreak
  | firstRegistered
  | lastRegistered
  deriving DecidableEq, Repr

structure RouterOptions where
  scoringMode : ScoringMode := .lenient
  tieBreak : TieBreak := .firstRegistered
  caseSensitive : Bool := false
  maxSegments : Nat := 64
  deriving DecidableEq, Repr

/-- Why options are not valid. -/
inductive OptionsError
  | maxSegmentsInvalid (provided : Nat)
  deriving DecidableEq, Repr

def OptionsError.message : OptionsError → String
  | .maxSegmentsInvalid provided =>
    "max_segments must be at least 1 (got " ++ toString provided ++ ")"

namespace RouterOptions

/-- A request may have a segment at all. -/
def Valid (o : RouterOptions) : Prop := 0 < o.maxSegments

instance (o : RouterOptions) : Decidable o.Valid := inferInstanceAs (Decidable (0 < _))

/-- Refuses options that are not valid. -/
def validate (o : RouterOptions) : Except OptionsError { o : RouterOptions // o.Valid } :=
  if h : o.Valid then .ok ⟨o, h⟩ else .error (.maxSegmentsInvalid o.maxSegments)

/-- How declared paths are read. -/
def declaration (o : RouterOptions) : DeclarationOptions := ⟨o.maxSegments, o.caseSensitive⟩

/-- How requests are scored. -/
def scoring (o : RouterOptions) : ScoreOptions := ⟨o.scoringMode, o.caseSensitive⟩

end RouterOptions

/-! ### Names of the choices -/

def ScoringMode.name : ScoringMode → String
  | .lenient => "Lenient"
  | .strict => "Strict"

def ScoringMode.ofName? (text : String) : Option ScoringMode :=
  [ScoringMode.lenient, .strict].find? (·.name == text)

def TieBreak.name : TieBreak → String
  | .firstRegistered => "FirstRegistered"
  | .lastRegistered => "LastRegistered"

def TieBreak.ofName? (text : String) : Option TieBreak :=
  [TieBreak.firstRegistered, .lastRegistered].find? (·.name == text)

end TypedRouting
