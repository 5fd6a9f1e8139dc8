import TypedRouting.Pattern.Basic
import TypedRouting.Pattern.Placeholder
import TypedRouting.Text.Lowercase

/-!
# Patterns from declared paths

`Pattern.ofPath` reads a declared path for an operation whose parameters are known. It refuses
a path of too many segments, then the leftmost placeholder that is an array before the end or
names no type, then a list of parameters other than the expected one.
-/

namespace TypedRouting

/-- Why a declared path is no pattern for an operation. -/
inductive PatternError
  | unknownParameterType (segment token : String)
  | arrayNotLast (path segment : String) (index : Nat)
  | parameterMismatch (path : String) (expected found : List ParameterType)
  | tooManySegments (path : String) (count limit : Nat)
  deriving DecidableEq, Repr

def PatternError.message : PatternError → String
  | .unknownParameterType segment token =>
    "unknown parameter type '" ++ token ++ "' in segment '" ++ segment ++ "'"
  | .arrayNotLast path segment index =>
    "array must be last: segment '" ++ segment ++ "' is at position " ++ toString index
      ++ " in '" ++ path ++ "'"
  | .parameterMismatch path expected found =>
    "parameter count/order mismatch in '" ++ path ++ "': pattern declares ["
      ++ ParameterType.listText found ++ "], operation expects ["
      ++ ParameterType.listText expected ++ "]"
  | .tooManySegments path count limit =>
    "path '" ++ path ++ "' has " ++ toString count ++ " segments, more than the limit of "
      ++ toString limit

/-- How declared paths are read. -/
structure DeclarationOptions where
  maxSegments : Nat := 64
  caseSensitive : Bool := false
  deriving DecidableEq, Repr

/-- The literal of a segment that is no placeholder: in lower case, unless case matters. -/
def DeclarationOptions.literal (options : DeclarationOptions) (segment : String) : String :=
  if options.caseSensitive then segment else Text.lowercase segment

/-- What one segment of a declared path adds to the pattern. -/
inductive Declared
  | segment (segment : Segment)
  | tail (tail : Tail)
  deriving DecidableEq, Repr

/-- A placeholder of a known type. -/
def Declared.ofPlaceholder (array : Bool) (type : ScalarType) (wording : Wording) : Declared :=
  if array then .tail ⟨type, wording⟩ else .segment (.placeholder type wording)

/-- Reads segment number `index` of `path`; `last` is set if no other follows it. -/
def Declared.ofText (options : DeclarationOptions) (path : String) (index : Nat) (last : Bool)
    (segment : String) : Except PatternError Declared :=
  match Placeholder.ofText? segment with
  | none => .ok (.segment (.literal (options.literal segment)))
  | some placeholder =>
    if placeholder.array && !last then .error (.arrayNotLast path segment index)
    else
      match ScalarType.ofToken? placeholder.token with
      | none => .error (.unknownParameterType segment placeholder.token)
      | some type => .ok (.ofPlaceholder placeholder.array type ⟨segment, placeholder.label⟩)

namespace Pattern

/-- Reads the segments of `path` from number `index` on. -/
def ofSegments (options : DeclarationOptions) (path : String) (index : Nat) :
    List String → Except PatternError Pattern
  | [] => .ok ⟨[], none⟩
  | text :: rest =>
    match Declared.ofText options path index rest.isEmpty text with
    | .error e => .error e
    | .ok (.tail tail) => .ok ⟨[], some tail⟩
    | .ok (.segment segment) => (ofSegments options path (index + 1) rest).map (cons segment)

/-- Reads a declared path for an operation with the parameters `expected`. -/
def ofPath (options : DeclarationOptions) (path : String) (expected : List ParameterType) :
    Except PatternError Pattern :=
  let segments := Path.segments path
  if options.maxSegments < segments.length then
    .error (.tooManySegments path segments.length options.maxSegments)
  else
    match ofSegments options path 0 segments with
    | .error e => .error e
    | .ok pattern =>
      if pattern.parameterTypes = expected then .ok pattern
      else .error (.parameterMismatch path expected pattern.parameterTypes)

end Pattern
end TypedRouting
