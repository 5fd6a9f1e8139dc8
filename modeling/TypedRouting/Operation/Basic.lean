import TypedRouting.Operation.Arguments

/-!
# Operations

An operation has a name, a signature and a handler that answers calls on receivers of type `ρ`
with results of type `ω`. A typed handler is given one input for each parameter of the
signature; a dynamic one is given the queue of arguments, of which only the number is checked.
-/

namespace TypedRouting

/-- What an operation of that signature does. -/
inductive Handler (ρ ω : Type) (signature : List ParameterType)
  | typed (run : ρ → Inputs signature → Except Failure ω)
  | dynamic (run : ρ → Arguments → Except Failure ω)

/-- A named handler with the types of its parameters. -/
structure Operation (ρ ω : Type) where
  name : String
  signature : List ParameterType
  handler : Handler ρ ω signature

namespace Operation

variable {ρ ω : Type}

def report (op : Operation ρ ω) (result : Except Failure ω) : Except InvocationError ω :=
  result.mapError (.failed op.name)

/-- Calls the handler with as many arguments as the signature has parameters. -/
def call (op : Operation ρ ω) (receiver : ρ) (arguments : Arguments) :
    Except InvocationError ω :=
  if arguments.length ≠ op.signature.length then
    .error (.arityMismatch op.name op.signature.length arguments.length)
  else
    match op.handler with
    | .typed run =>
      match arguments.inputs op.signature with
      | .error e => .error e
      | .ok inputs => op.report (run receiver inputs)
    | .dynamic run => op.report (run receiver arguments)

end Operation
end TypedRouting
