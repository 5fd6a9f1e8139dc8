import TypedRouting.Parameter
import TypedRouting.Path

/-!
# Patterns

A pattern is a row of fixed segments, each a literal text or a placeholder for one value,
followed by an optional tail that takes all further segments of a request as one array. That an
array comes last, and that the root pattern has no segments, needs no separate check. The
wording of the placeholders is kept for display; it has no effect on requests.
-/

namespace TypedRouting

/-- How a placeholder is written, and the label in it. -/
structure Wording where
  text : String
  label : Option String
  deriving DecidableEq, Repr

/-- A segment that stands for one segment of a request. -/
inductive Segment
  | literal (text : String)
  | placeholder (type : ScalarType) (wording : Wording)
  deriving DecidableEq, Repr

/-- The array at the end of a pattern. -/
structure Tail where
  element : ScalarType
  wording : Wording
  deriving DecidableEq, Repr

/-- A declared path, ready for requests. -/
structure Pattern where
  fixed : List Segment
  tail : Option Tail
  deriving DecidableEq, Repr

/-- A segment of a pattern without its wording; `root` stands alone in a pattern of no
segments. -/
inductive Shape
  | root
  | literal (text : String)
  | typed (type : ParameterType)
  deriving DecidableEq, Repr

/-! ### Views of a segment -/

namespace Segment

/-- The text of a segment in a normal path. -/
def text : Segment → String
  | .literal text => text
  | .placeholder _ wording => wording.text

def shape : Segment → Shape
  | .literal text => .literal text
  | .placeholder t _ => .typed (.scalar t)

/-- The parameter that a segment declares. -/
def parameter? : Segment → Option ParameterType
  | .literal _ => none
  | .placeholder t _ => some (.scalar t)

def wording? : Segment → Option Wording
  | .literal _ => none
  | .placeholder _ wording => some wording

end Segment

/-! ### Views of a pattern -/

namespace Pattern

def isRoot (p : Pattern) : Bool := p.fixed.isEmpty && p.tail.isNone

def hasArray (p : Pattern) : Bool := p.tail.isSome

def texts (p : Pattern) : List String :=
  p.fixed.map Segment.text ++ p.tail.toList.map (·.wording.text)

/-- The declared path in its normal form. -/
def path (p : Pattern) : String := Path.join p.texts

def shapes (p : Pattern) : List Shape :=
  if p.isRoot then [.root]
  else p.fixed.map Segment.shape ++ p.tail.toList.map (.typed <| .array ·.element)

/-- The parameters that the pattern declares, in order. -/
def parameterTypes (p : Pattern) : List ParameterType :=
  p.fixed.filterMap Segment.parameter? ++ p.tail.toList.map (.array ·.element)

def labels (p : Pattern) : List (Option String) :=
  p.fixed.filterMap (·.wording?.map Wording.label) ++ p.tail.toList.map (·.wording.label)

def cons (s : Segment) (p : Pattern) : Pattern := { p with fixed := s :: p.fixed }

end Pattern
end TypedRouting
