import TypedRouting.Scalar.Basic

/-!
# Parameters and their values

A parameter is a scalar or an array of scalars. A `Value` carries its type along; items of an
array value are values in their own right, and `Value.as?` checks them when it takes the value
at a parameter type. `Inputs` is the type of the arguments of a whole signature.
-/

namespace TypedRouting

/-- The types of parameters. -/
inductive ParameterType
  | scalar (type : ScalarType)
  | array (element : ScalarType)
  deriving DecidableEq, Repr

namespace ParameterType

/-- The type of the parameter, or of its items. -/
def element : ParameterType → ScalarType
  | .scalar t => t
  | .array t => t

def isArray : ParameterType → Bool
  | .scalar _ => false
  | .array _ => true

/-- The name of the element, followed by `[]` for an array. -/
def text : ParameterType → String
  | .scalar t => t.name
  | .array t => t.name ++ "[]"

/-- The texts of a list of types, separated by commas. -/
def listText (types : List ParameterType) : String :=
  ", ".intercalate (types.map text)

/-- The values that a parameter takes. -/
abbrev Carrier : ParameterType → Type
  | .scalar t => t.Carrier
  | .array t => List t.Carrier

end ParameterType

/-- A value together with its type. -/
inductive Value
  | scalar (type : ScalarType) (content : type.Carrier)
  | array (element : ScalarType) (items : List Value)

namespace Value

/-- The parameter type that a value claims for itself. -/
def type : Value → ParameterType
  | .scalar t _ => .scalar t
  | .array t _ => .array t

/-- The value of the parameter, as it stands. -/
def ofCarrier : (T : ParameterType) → T.Carrier → Value
  | .scalar t, x => .scalar t x
  | .array t, xs => .array t (xs.map (.scalar t))

/-- The content of a scalar of type `t`. -/
def scalar? (t : ScalarType) : Value → Option t.Carrier
  | .scalar u x => if h : u = t then some (h ▸ x) else none
  | .array _ _ => none

/-- The content of a value at a parameter type: a scalar of that type, or an array of that
element type all of whose items are scalars of it. -/
def as? : (T : ParameterType) → Value → Option T.Carrier
  | .scalar t, v => v.scalar? t
  | .array t, .array u items => if u = t then items.mapM (scalar? t) else none
  | .array _, .scalar _ _ => none

@[simp]
theorem scalar?_scalar (t : ScalarType) (x : t.Carrier) : (scalar t x).scalar? t = some x := by
  simp [scalar?]

/-- A value built at a type is found at that type. -/
theorem as?_ofCarrier (T : ParameterType) (x : T.Carrier) : (ofCarrier T x).as? T = some x := by
  cases T with
  | scalar t => exact scalar?_scalar t x
  | array t =>
    simp only [ofCarrier, as?, if_true]
    induction x with
    | nil => rfl
    | cons y ys ih => simp [ih]

end Value

/-- The arguments of a signature, one for each parameter. -/
def Inputs : List ParameterType → Type
  | [] => Unit
  | T :: Ts => T.Carrier × Inputs Ts

def Inputs.toValues : (signature : List ParameterType) → Inputs signature → List Value
  | [], _ => []
  | T :: Ts, (x, rest) => Value.ofCarrier T x :: toValues Ts rest

end TypedRouting
