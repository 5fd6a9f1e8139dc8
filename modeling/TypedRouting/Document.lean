import TypedRouting.Parameter
import TypedRouting.Routing.Options

/-!
# Stored options and types

A `Document` is a stored value of the usual kinds. A choice is stored as its name, or as a record
whose only field has that name and holds null. The options of a router are stored as a record
or as a list; what is left out has its default, what is null is not left out.
-/

namespace TypedRouting

/-- A stored value. A number that is not written as a natural number is a `number`. -/
inductive Document
  | null
  | boolean (value : Bool)
  | natural (value : Nat)
  | number
  | text (value : String)
  | list (items : List Document)
  | record (fields : List (String × Document))
  deriving Inhabited, Repr

namespace Document

def choice? : Document → Option String
  | .text name => some name
  | .record [(name, .null)] => some name
  | _ => none

def boolean? : Document → Option Bool
  | .boolean value => some value
  | _ => none

/-- A natural number of at most 64 bits. -/
def count? : Document → Option Nat
  | .natural n => if n < 2 * Numeral.Width.long.limit then some n else none
  | _ => none

/-- What a document holds, or the default where there is no document. -/
def orDefault {α : Type} (default : α) (read : Document → Option α) :
    Option Document → Option α
  | none => some default
  | some document => read document

end Document

def ScalarType.ofDocument? (d : Document) : Option ScalarType :=
  d.choice?.bind ScalarType.ofName?

def ScoringMode.ofDocument? (d : Document) : Option ScoringMode :=
  d.choice?.bind ScoringMode.ofName?

def TieBreak.ofDocument? (d : Document) : Option TieBreak :=
  d.choice?.bind TieBreak.ofName?

/-- The stored parameter type: a record of one field, which says whether it is an array. -/
def ParameterType.ofDocument? : Document → Option ParameterType
  | .record [("Scalar", d)] => (ScalarType.ofDocument? d).map .scalar
  | .record [("Array", d)] => (ScalarType.ofDocument? d).map .array
  | _ => none

namespace RouterOptions

/-- Options from documents that may be left out. -/
def ofDocuments? (scoringMode tieBreak caseSensitive maxSegments : Option Document) :
    Option RouterOptions := do
  let defaults : RouterOptions := {}
  return {
    scoringMode := ← Document.orDefault defaults.scoringMode ScoringMode.ofDocument? scoringMode
    tieBreak := ← Document.orDefault defaults.tieBreak TieBreak.ofDocument? tieBreak
    caseSensitive := ← Document.orDefault defaults.caseSensitive Document.boolean? caseSensitive
    maxSegments := ← Document.orDefault defaults.maxSegments Document.count? maxSegments }

def ofDocument? : Document → Option RouterOptions
  | .record fields =>
    ofDocuments? (fields.lookup "scoring_mode") (fields.lookup "tie_break")
      (fields.lookup "case_sensitive") (fields.lookup "max_segments")
  | .list items =>
    if items.length ≤ 4 then ofDocuments? items[0]? items[1]? items[2]? items[3]? else none
  | _ => none

end RouterOptions
end TypedRouting
