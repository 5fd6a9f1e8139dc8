import TypedRouting.Routing.Snapshot

/-!
# Routers

A router registers routes until it is closed; from then on it answers requests from a snapshot.
Routes are numbered in the order of registration. `Router.addBulk` registers all of its entries
or, if one of them fails, none.
-/

namespace TypedRouting

variable {ρ ω : Type}

/-- Why a router refuses a call. -/
inductive RouterError
  | addWhileClosed (path : String)
  | bulkAddWhileClosed (count : Nat)
  | findWhileOpen
  | snapshotUnavailable
  | unknownOperation (path operation : String)
  | pattern (error : PatternError)
  | options (error : OptionsError)
  | dispatch (error : DispatchError)
  deriving DecidableEq, Repr

namespace RouterError

def message : RouterError → String
  | .addWhileClosed path => "router is sealed; cannot add route '" ++ path ++ "'"
  | .bulkAddWhileClosed count =>
    "router is sealed; cannot add " ++ toString count ++ " routes in bulk"
  | .findWhileOpen => "router is not sealed; cannot perform route lookup"
  | .snapshotUnavailable => "router is not sealed; readonly snapshot is unavailable"
  | .unknownOperation path operation =>
    "route '" ++ path ++ "' refers to unknown operation '" ++ operation ++ "'"
  | .pattern error => error.message
  | .options error => error.message
  | .dispatch error => error.message

def causes : RouterError → List String
  | .dispatch error => error.causes
  | _ => []

end RouterError

/-- The life of a router. -/
inductive RouterState (ρ ω : Type)
  | registering (routes : List Route) (operations : OperationTable ρ ω)
  | closed (snapshot : Snapshot ρ ω)

/-- A router with valid options. -/
structure Router (ρ ω : Type) where
  options : RouterOptions
  valid : options.Valid
  state : RouterState ρ ω

namespace Router

/-- A router of no routes. -/
def ofOperations (operations : OperationTable ρ ω) (options : Option RouterOptions) :
    Except RouterError (Router ρ ω) :=
  match (options.getD {}).validate with
  | .ok ⟨options, valid⟩ => .ok ⟨options, valid, .registering [] operations⟩
  | .error e => .error (.options e)

def withState (r : Router ρ ω) (state : RouterState ρ ω) : Router ρ ω := { r with state }

/-- The router is closed: it registers no further routes. -/
def isClosed (r : Router ρ ω) : Bool :=
  match r.state with
  | .registering .. => false
  | .closed _ => true

/-! ### Registration -/

/-- The route that a declared path and the name of an operation make. -/
def routeOf (options : RouterOptions) (operations : OperationTable ρ ω) (id : Nat)
    (path operation : String) : Except RouterError Route :=
  match operations.get? operation with
  | none => .error (.unknownOperation path operation)
  | some op => (Route.ofPath options.declaration id path op).mapError .pattern

/-- The routes of several entries, numbered from `id` on. -/
def routesOf (options : RouterOptions) (operations : OperationTable ρ ω) (id : Nat) :
    List (String × String) → Except RouterError (List Route)
  | [] => .ok []
  | (path, operation) :: rest =>
    match routeOf options operations id path operation with
    | .error e => .error e
    | .ok route => (routesOf options operations (id + 1) rest).map (route :: ·)

/-- Registers a declared path for an operation and returns the number of the route. -/
def add (r : Router ρ ω) (path operation : String) : Except RouterError (Nat × Router ρ ω) :=
  match r.state with
  | .closed _ => .error (.addWhileClosed path)
  | .registering routes operations =>
    (routeOf r.options operations routes.length path operation).map fun route =>
      (route.id, r.withState (.registering (routes ++ [route]) operations))

/-- Registers several declared paths, or none, and returns the numbers of the routes. -/
def addBulk (r : Router ρ ω) (entries : List (String × String)) :
    Except RouterError (List Nat × Router ρ ω) :=
  match r.state with
  | .closed _ => .error (.bulkAddWhileClosed entries.length)
  | .registering routes operations =>
    (routesOf r.options operations routes.length entries).map fun added =>
      (added.map (·.id), r.withState (.registering (routes ++ added) operations))

/-- Ends the registration. A closed router keeps its snapshot. -/
def close (r : Router ρ ω) : Snapshot ρ ω × Router ρ ω :=
  match r.state with
  | .closed snapshot => (snapshot, r)
  | .registering routes operations =>
    let snapshot := ⟨routes, operations, r.options⟩
    (snapshot, r.withState (.closed snapshot))

/-! ### Requests -/

def snapshot (r : Router ρ ω) : Except RouterError (Snapshot ρ ω) :=
  match r.state with
  | .closed snapshot => .ok snapshot
  | .registering .. => .error .snapshotUnavailable

/-- The best route for a request, if any matches. -/
def find (r : Router ρ ω) (path : String) : Except RouterError (Option RouteMatch) :=
  match r.state with
  | .closed snapshot => .ok (snapshot.find path)
  | .registering .. => .error .findWhileOpen

/-- Calls the operation of the best route for a request. -/
def dispatch (r : Router ρ ω) (receiver : ρ) (path : String) : Except RouterError ω :=
  match r.state with
  | .closed snapshot => (snapshot.dispatch receiver path).mapError .dispatch
  | .registering .. => .error .findWhileOpen

end Router
end TypedRouting
