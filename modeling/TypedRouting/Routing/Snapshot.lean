import TypedRouting.Operation.Invocation
import TypedRouting.Routing.Options

/-!
# Routes and snapshots

A route is a pattern bound to the operation it was declared for. A snapshot is a finished list
of routes with its operations and options: `Snapshot.scoreAll` scores all routes for a request,
`Snapshot.find` takes the best one, `Snapshot.dispatch` calls its operation.
-/

namespace TypedRouting

variable {ρ ω : Type}

/-- A pattern and the operation it leads to. -/
structure Route where
  id : Nat
  pattern : Pattern
  binding : Binding
  deriving DecidableEq, Repr

/-- Reads a declared path for an operation and binds the two. -/
def Route.ofPath (options : DeclarationOptions) (id : Nat) (path : String)
    (op : Operation ρ ω) : Except PatternError Route :=
  (Pattern.ofPath options path op.signature).map fun pattern =>
    ⟨id, pattern, op.name, pattern.parameterTypes⟩

/-- A route and its score for some request. -/
structure RouteMatch where
  id : Nat
  score : Nat
  deriving DecidableEq, Repr

/-- Why a request has no result. -/
inductive DispatchError
  | routeNotFound (path : String)
  | invocation (error : InvocationError)
  deriving DecidableEq, Repr

namespace DispatchError

def message : DispatchError → String
  | .routeNotFound path => "no route matched path '" ++ path ++ "'"
  | .invocation error => error.message

def causes : DispatchError → List String
  | .routeNotFound _ => []
  | .invocation error => error.causes

end DispatchError

/-- The better of a match so far and a later one. A score of zero is no match. -/
def TieBreak.better (tieBreak : TieBreak) (best : Option RouteMatch) (next : RouteMatch) :
    Option RouteMatch :=
  if next.score = 0 then best
  else
    match best, tieBreak with
    | none, _ => some next
    | some m, .firstRegistered => if m.score < next.score then some next else some m
    | some m, .lastRegistered => if m.score ≤ next.score then some next else some m

/-- A list of routes that no longer changes. -/
structure Snapshot (ρ ω : Type) where
  routes : List Route
  operations : OperationTable ρ ω
  options : RouterOptions

namespace Snapshot

def size (s : Snapshot ρ ω) : Nat := s.routes.length

def isEmpty (s : Snapshot ρ ω) : Bool := s.routes.isEmpty

/-- The route registered under a number. -/
def route? (s : Snapshot ρ ω) (id : Nat) : Option Route := s.routes[id]?

/-- A route with its score for the segments of a request. -/
def matchOf (s : Snapshot ρ ω) (request : List String) (r : Route) : RouteMatch :=
  ⟨r.id, r.pattern.scoreSegments s.options.scoring request⟩

/-- The request has more segments than the options allow. -/
def tooLong (s : Snapshot ρ ω) (request : List String) : Bool :=
  s.options.maxSegments < request.length

/-- The scores of all routes, in the order of registration. -/
def scoreAll (s : Snapshot ρ ω) (path : String) : List RouteMatch :=
  let request := Path.segments path
  if s.tooLong request then s.routes.map (⟨·.id, 0⟩) else s.routes.map (s.matchOf request)

def findSegments (s : Snapshot ρ ω) (request : List String) : Option RouteMatch :=
  if s.tooLong request then none
  else s.routes.foldl (fun best r => s.options.tieBreak.better best (s.matchOf request r)) none

/-- The best route for a request, if any matches. -/
def find (s : Snapshot ρ ω) (path : String) : Option RouteMatch :=
  s.findSegments (Path.segments path)

/-- Calls the operation of a route with the arguments of a request. The route need not be one
of the snapshot; its operation is looked up by name. -/
def invoke (s : Snapshot ρ ω) (r : Route) (receiver : ρ) (path : String) :
    Except InvocationError ω :=
  TypedRouting.invoke r.pattern r.binding s.operations receiver path

/-- Calls the operation of the best route for a request. -/
def dispatch (s : Snapshot ρ ω) (receiver : ρ) (path : String) : Except DispatchError ω :=
  match (s.find path).bind fun found => s.route? found.id with
  | none => .error (.routeNotFound path)
  | some r => (s.invoke r receiver path).mapError .invocation

end Snapshot
end TypedRouting
