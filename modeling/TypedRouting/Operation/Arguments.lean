import TypedRouting.Operation.Error

/-!
# The arguments of a call

`Arguments` is a queue of values that counts how many it has given out. `next` takes the value
in front at a parameter type; a value of another type is used up all the same, and an empty
queue stays as it is. `inputs` takes one value for each parameter of a signature.
-/

namespace TypedRouting

/-- The values not yet taken, and the number of those taken. -/
structure Arguments where
  remaining : List Value
  taken : Nat := 0

namespace Arguments

/-- The arguments of a call that has not begun. -/
def ofList (values : List Value) : Arguments := ⟨values, 0⟩

def length (a : Arguments) : Nat := a.remaining.length

def isEmpty (a : Arguments) : Bool := a.remaining.isEmpty

def push (a : Arguments) (v : Value) : Arguments := { a with remaining := a.remaining ++ [v] }

/-- Takes the next value at a parameter type. -/
def next (T : ParameterType) (a : Arguments) : Except InvocationError T.Carrier × Arguments :=
  match a.remaining with
  | [] => (.error (.missingArgument a.taken T), a)
  | v :: rest =>
    let result := match v.as? T with
      | some x => .ok x
      | none => .error (.argumentType a.taken T v.type)
    (result, ⟨rest, a.taken + 1⟩)

/-- Takes one value for each parameter, up to the first that fails. -/
def inputs : (signature : List ParameterType) → Arguments →
    Except InvocationError (Inputs signature)
  | [], _ => .ok ()
  | T :: Ts, a =>
    match a.next T with
    | (.ok x, rest) => (inputs Ts rest).map (x, ·)
    | (.error e, _) => .error e

end Arguments
end TypedRouting
