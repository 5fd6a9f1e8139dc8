import TypedRouting.Operation.Table
import TypedRouting.Pattern.Basic

/-!
# From requests to calls

`Pattern.bind` converts the segments of a request at the placeholders of a pattern. It does not
rely on a score: the leftmost placeholder without a segment, or with one that does not convert,
is an error. `invoke` looks up the operation of a binding, checks its signature and calls it
with the arguments of the request.
-/

namespace TypedRouting

/-- The operation that a pattern leads to, and the parameters it is expected to have. -/
structure Binding where
  operation : String
  types : List ParameterType
  deriving DecidableEq, Repr

/-- Converts the text of a segment, as part of an invocation. -/
def ScalarType.bindText (t : ScalarType) (text : String) : Except InvocationError Value :=
  match t.convert text with
  | .ok x => .ok (.scalar t x)
  | .error e => .error (.conversion e)

/-- The arguments of a row of fixed segments, numbered from `index` on. -/
def bindFixed (index : Nat) : List Segment → List String → Except InvocationError (List Value)
  | [], _ => .ok []
  | .literal _ :: ss, request => bindFixed (index + 1) ss request.tail
  | .placeholder t _ :: _, [] => .error (.missingSegment index t)
  | .placeholder t _ :: ss, v :: vs =>
    match t.bindText v with
    | .error e => .error e
    | .ok argument => (bindFixed (index + 1) ss vs).map (argument :: ·)

/-- Converts the items of an array. -/
def bindItems (element : ScalarType) : List String → Except InvocationError (List Value)
  | [] => .ok []
  | v :: vs =>
    match element.bindText v with
    | .error e => .error e
    | .ok item => (bindItems element vs).map (item :: ·)

/-- The array that a tail makes of the segments left to it. -/
def Tail.bind (tail : Tail) (items : List String) : Except InvocationError Value :=
  (bindItems tail.element items).map (.array tail.element)

namespace Pattern

/-- The arguments of a pattern for the segments of a request. -/
def bindSegments (p : Pattern) (request : List String) : Except InvocationError (List Value) :=
  match bindFixed 0 p.fixed request, p.tail with
  | .error e, _ => .error e
  | .ok fixed, none => .ok fixed
  | .ok fixed, some tail =>
    (tail.bind (request.drop p.fixed.length)).map fun array => fixed ++ [array]

def bind (p : Pattern) (request : String) : Except InvocationError (List Value) :=
  p.bindSegments (Path.segments request)

end Pattern

variable {ρ ω : Type}

/-- Calls the operation of a binding with the arguments of a request. -/
def invokeSegments (p : Pattern) (binding : Binding) (operations : OperationTable ρ ω)
    (receiver : ρ) (request : List String) : Except InvocationError ω :=
  match operations.get? binding.operation with
  | none => .error (.unknownOperation binding.operation)
  | some op =>
    if op.signature ≠ binding.types then
      .error (.signatureMismatch op.name op.signature binding.types)
    else
      match p.bindSegments request with
      | .error e => .error e
      | .ok arguments => op.call receiver (.ofList arguments)

/-- Calls the operation of a binding for a request path. -/
def invoke (p : Pattern) (binding : Binding) (operations : OperationTable ρ ω) (receiver : ρ)
    (request : String) : Except InvocationError ω :=
  invokeSegments p binding operations receiver (Path.segments request)

end TypedRouting
