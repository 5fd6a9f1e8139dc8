import TypedRouting.Scalar.Conversion
import TypedRouting.Parameter

/-!
# What can go wrong in a call

An `InvocationError` has a wording of its own and a list of causes, outermost first. A handler
reports a `Failure`, which may have causes too.
-/

namespace TypedRouting

/-- The error of a handler. -/
structure Failure where
  message : String
  causes : List String := []
  deriving DecidableEq, Repr

/-- Why an operation has no result for a request. -/
inductive InvocationError
  | conversion (error : ConversionError)
  | missingSegment (index : Nat) (type : ScalarType)
  | unknownOperation (name : String)
  | signatureMismatch (operation : String) (expected found : List ParameterType)
  | arityMismatch (operation : String) (expected found : Nat)
  | missingArgument (position : Nat) (expected : ParameterType)
  | argumentType (position : Nat) (expected found : ParameterType)
  | failed (operation : String) (failure : Failure)
  deriving DecidableEq, Repr

namespace InvocationError

/-- The wording of an error, without its causes. -/
def message : InvocationError → String
  | .conversion _ => "could not convert path segment"
  | .missingSegment index type =>
    "request path has no segment at position " ++ toString index ++ " for a " ++ type.name
      ++ " parameter"
  | .unknownOperation name => "operation '" ++ name ++ "' is not registered"
  | .signatureMismatch operation expected found =>
    "operation '" ++ operation ++ "' takes [" ++ ParameterType.listText expected
      ++ "] but the binding supplies [" ++ ParameterType.listText found ++ "]"
  | .arityMismatch operation expected found =>
    "operation '" ++ operation ++ "' takes " ++ toString expected ++ " arguments, got "
      ++ toString found
  | .missingArgument position expected =>
    "argument " ++ toString position ++ " of type " ++ expected.text ++ " is missing"
  | .argumentType position expected found =>
    "argument " ++ toString position ++ " expected " ++ expected.text ++ ", found " ++ found.text
  | .failed operation _ => "operation '" ++ operation ++ "' failed"

def causes : InvocationError → List String
  | .conversion error => [error.message]
  | .failed _ failure => failure.message :: failure.causes
  | _ => []

/-- The error as the failure of a handler. -/
def toFailure (e : InvocationError) : Failure := ⟨e.message, e.causes⟩

end InvocationError
end TypedRouting
