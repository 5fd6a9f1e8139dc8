import TypedRouting.Routing.Router
import TypedRouting.Text.Quoted

/-!
# Inspection text

One-line texts of operations, tables, routes, snapshots and routers for a reader who wants to
see all of their fields. Records are written `Name { field: value, … }`, and the handler of an
operation, which has no text, as two dots.
-/

namespace TypedRouting
namespace Inspection

/-! ### Layout -/

def list (items : List String) : String := "[" ++ ", ".intercalate items ++ "]"

def set (items : List String) : String := "\x7b" ++ ", ".intercalate items ++ "\x7d"

def applied (name argument : String) : String := name ++ "(" ++ argument ++ ")"

def field (name value : String) : String := name ++ ": " ++ value

def record (name : String) (fields : List String) : String :=
  name ++ " \x7b " ++ ", ".intercalate fields ++ " \x7d"

end Inspection

open Inspection

/-! ### Patterns -/

def ParameterType.inspect : ParameterType → String
  | .scalar t => applied "Scalar" t.name
  | .array t => applied "Array" t.name

def ParameterType.inspectList (types : List ParameterType) : String := list (types.map inspect)

def Shape.inspect : Shape → String
  | .root => "Root"
  | .literal text => applied "Literal" (Text.quoted text)
  | .typed (.scalar t) => applied "Typed" t.name
  | .typed (.array t) => applied "TypedArray" t.name

def inspectLabel : Option String → String
  | none => "None"
  | some label => applied "Some" (Text.quoted label)

def Pattern.inspect (p : Pattern) : String :=
  record "CompiledPattern" [
    field "raw_path" (Text.quoted p.path),
    field "segments" (list (p.shapes.map Shape.inspect)),
    field "parameter_types" (ParameterType.inspectList p.parameterTypes),
    field "labels" (list (p.labels.map inspectLabel))]

/-! ### Operations -/

def Binding.inspect (b : Binding) : String :=
  record "HandlerBinding" [
    field "operation_name" (Text.quoted b.operation),
    field "parameter_types" (ParameterType.inspectList b.types)]

variable {ρ ω : Type}

def Operation.inspect (op : Operation ρ ω) : String :=
  record "Operation" [
    field "name" (Text.quoted op.name),
    field "signature" (ParameterType.inspectList op.signature),
    ".."]

def OperationTable.inspect (t : OperationTable ρ ω) : String :=
  set (t.operations.map Operation.inspect)

/-! ### Routers -/

def RouterOptions.inspect (o : RouterOptions) : String :=
  record "RouterOptions" [
    field "scoring_mode" o.scoringMode.name,
    field "tie_break" o.tieBreak.name,
    field "case_sensitive" (toString o.caseSensitive),
    field "max_segments" (toString o.maxSegments)]

def Route.inspect (r : Route) : String :=
  record "Route" [
    field "id" (toString r.id),
    field "pattern" r.pattern.inspect,
    field "binding" r.binding.inspect]

def Snapshot.inspect (s : Snapshot ρ ω) : String :=
  record "RouterReadOnly" [
    field "routes" (list (s.routes.map Route.inspect)),
    field "operations" s.operations.inspect,
    field "options" s.options.inspect]

/-- The text of a router. What a closed router has handed to its snapshot is not shown. -/
def Router.inspect (r : Router ρ ω) : String :=
  let (routes, operations) := match r.state with
    | .registering routes operations => (routes, operations)
    | .closed _ => ([], .empty)
  record "Router" [
    field "routes" (list (routes.map Route.inspect)),
    field "operations" operations.inspect,
    field "sealed" (toString r.isClosed),
    field "options" r.options.inspect]

end TypedRouting
