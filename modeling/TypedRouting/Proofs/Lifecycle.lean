import TypedRouting.Proofs.Declaration
import TypedRouting.Proofs.Registration

/-!
# The life of a router

A `Router.Call` is anything that is asked of a router, and `Router.respond` gives the answer and the
router after it. `Router.after` is the router after any number of calls and `Router.transcript` the
record of them with their answers.

* `Router.close_or_registers_or_keeps`: all that a call can do.
* `Router.after_eq_run`: a router and what it accepted depend on the commands among the calls only.
* `Router.routeIds_after`: its routes have the numbers that it answered, in order.
* `Router.Open`, `Router.Settled`: what a router answers until it is closed, and from then on.
* `Router.preserves_close`: closed after some calls, it hands out what they registered.
* `Router.respond_after`: a router is open until the first `close` and settled afterwards, with the
  snapshot that was answered then; and a call that is refused changes nothing.
-/

namespace TypedRouting

variable {ρ ω : Type}

/-! ### Calls -/

namespace Router

/-- A call of a router: a command or a request. -/
inductive Call (ρ : Type)
  | add (path operation : String)
  | addBulk (entries : List (String × String))
  | close
  | isClosed
  | snapshot
  | find (path : String)
  | dispatch (receiver : ρ) (path : String)

/-- What a router answers where it does not refuse. -/
inductive Answer (ρ ω : Type)
  | number (id : Nat)
  | numbers (ids : List Nat)
  | snapshot (snapshot : Snapshot ρ ω)
  | closed (closed : Bool)
  | found (best : Option RouteMatch)
  | result (result : ω)

/-- The answer to a call and the router after it. -/
def respond (r : Router ρ ω) : Call ρ → Except RouterError (Answer ρ ω) × Router ρ ω
  | .add path operation =>
    match r.add path operation with
    | .ok (id, next) => (.ok (.number id), next)
    | .error e => (.error e, r)
  | .addBulk entries =>
    match r.addBulk entries with
    | .ok (ids, next) => (.ok (.numbers ids), next)
    | .error e => (.error e, r)
  | .close => (.ok (.snapshot r.close.1), r.close.2)
  | .isClosed => (.ok (.closed r.isClosed), r)
  | .snapshot => (r.snapshot.map .snapshot, r)
  | .find path => ((r.find path).map .found, r)
  | .dispatch receiver path => ((r.dispatch receiver path).map .result, r)

/-- The router after a number of calls. -/
def after (r : Router ρ ω) (calls : List (Call ρ)) : Router ρ ω :=
  calls.foldl (fun r call => (r.respond call).2) r

@[simp]
theorem after_nil (r : Router ρ ω) : r.after [] = r := rfl

@[simp]
theorem after_cons (r : Router ρ ω) (call : Call ρ) (calls : List (Call ρ)) :
    r.after (call :: calls) = (r.respond call).2.after calls := rfl

theorem after_append (r : Router ρ ω) (before later : List (Call ρ)) :
    r.after (before ++ later) = (r.after before).after later := List.foldl_append

/-! ### Transcripts -/

/-- The commands in a call: one, or none where it is a request. -/
def Call.commands : Call ρ → List Command
  | .add path operation => [.add path operation]
  | .addBulk entries => [.addBulk entries]
  | .close => [.close]
  | _ => []

/-- The entries that a call registers if it is answered so. -/
def Call.accepted (call : Call ρ) : Except RouterError (Answer ρ ω) → List (String × String)
  | .ok _ => call.commands.flatMap Command.entries
  | .error _ => []

/-- The numbers of routes in an answer. -/
def Answer.numbered : Except RouterError (Answer ρ ω) → List Nat
  | .ok (.number id) => [id]
  | .ok (.numbers ids) => ids
  | _ => []

/-- Calls with their answers. -/
abbrev Transcript (ρ ω : Type) := List (Call ρ × Except RouterError (Answer ρ ω))

/-- The calls of a router, each with its answer. -/
def transcript (r : Router ρ ω) : List (Call ρ) → Transcript ρ ω
  | [] => []
  | call :: calls => (call, (r.respond call).1) :: (r.respond call).2.transcript calls

namespace Transcript

/-- The entries that were registered, in order. -/
def entries (t : Transcript ρ ω) : List (String × String) :=
  t.flatMap fun (call, answer) => call.accepted answer

/-- The numbers that were answered to them. -/
def numbers (t : Transcript ρ ω) : List Nat :=
  t.flatMap fun (_, answer) => Answer.numbered answer

end Transcript

/-! ### What a call does -/

/-- The call registers a batch and answers its numbers. -/
def Registers (r : Router ρ ω) (call : Call ρ) : Prop :=
  ∃ entries ids answer next, r.addBulk entries = .ok (ids, next) ∧
    r.respond call = (.ok answer, next) ∧ Answer.numbered (.ok answer) = ids

/-- The call leaves the router as it is and answers no numbers. -/
def Keeps (r : Router ρ ω) (call : Call ρ) : Prop :=
  (r.respond call).2 = r ∧ Answer.numbered (r.respond call).1 = []

theorem close_or_registers_or_keeps (r : Router ρ ω) (call : Call ρ) :
    call = .close ∨ r.Registers call ∨ r.Keeps call := by
  cases call with
  | add path operation =>
    cases hadd : r.add path operation with
    | error e => exact .inr (.inr (by simp [Keeps, respond, hadd, Answer.numbered]))
    | ok result =>
      obtain ⟨id, next⟩ := result
      refine .inr (.inl ⟨_, [id], .number id, next, addBulk_of_add hadd, ?_, rfl⟩)
      simp [respond, hadd]
  | addBulk entries =>
    cases hadd : r.addBulk entries with
    | error e => exact .inr (.inr (by simp [Keeps, respond, hadd, Answer.numbered]))
    | ok result =>
      obtain ⟨ids, next⟩ := result
      refine .inr (.inl ⟨_, ids, .numbers ids, next, hadd, ?_, rfl⟩)
      simp [respond, hadd]
  | close => exact .inl rfl
  | isClosed => exact .inr (.inr ⟨rfl, rfl⟩)
  | snapshot =>
    cases h : r.snapshot <;> exact .inr (.inr (by simp [Keeps, respond, h, Answer.numbered]))
  | find path =>
    cases h : r.find path <;> exact .inr (.inr (by simp [Keeps, respond, h, Answer.numbered]))
  | dispatch receiver path =>
    cases h : r.dispatch receiver path <;>
      exact .inr (.inr (by simp [Keeps, respond, h, Answer.numbered]))

/-- A call that is refused leaves the router as it is. -/
theorem respond_of_error {r : Router ρ ω} {call : Call ρ} {e : RouterError}
    (h : (r.respond call).1 = .error e) : (r.respond call).2 = r := by
  rcases r.close_or_registers_or_keeps call with rfl | ⟨_, _, _, _, -, hrespond, -⟩ | ⟨hkept, -⟩
  · cases h
  · rw [hrespond] at h
    cases h
  · exact hkept

/-! ### The commands among the calls -/

theorem respond_eq_run (r : Router ρ ω) (call : Call ρ) :
    (r.respond call).2 = r.run call.commands ∧
      call.accepted (r.respond call).1 = r.accepted call.commands := by
  cases call with
  | add path operation =>
    cases hadd : r.add path operation <;>
      simp [respond, hadd, Call.commands, Call.accepted, step, accepted, taken, execute,
        Command.entries]
  | addBulk entries =>
    cases hadd : r.addBulk entries <;>
      simp [respond, hadd, Call.commands, Call.accepted, step, accepted, taken, execute,
        Command.entries]
  | close =>
    simp [respond, Call.commands, Call.accepted, step, accepted, taken, execute, Command.entries]
  | _ => exact ⟨rfl, by unfold Call.accepted; split <;> rfl⟩

/-- The requests among the calls leave no trace. -/
theorem after_eq_run (r : Router ρ ω) (calls : List (Call ρ)) :
    r.after calls = r.run (calls.flatMap Call.commands) ∧
      (r.transcript calls).entries = r.accepted (calls.flatMap Call.commands) := by
  induction calls generalizing r with
  | nil => exact ⟨rfl, rfl⟩
  | cons call calls ih =>
    obtain ⟨hnext, haccepted⟩ := r.respond_eq_run call
    obtain ⟨hafter, hentries⟩ := ih (r.respond call).2
    rw [hnext] at hafter hentries
    rw [List.flatMap_cons, run_append, accepted_append, after_cons, hnext, hafter]
    refine ⟨rfl, ?_⟩
    rw [← haccepted, ← hentries, transcript, ← hnext]
    rfl

/-! ### The numbers that are answered -/

/-- The numbers of the routes that a router has or has handed on. -/
def routeIds (r : Router ρ ω) : List Nat := r.close.1.routes.map (·.id)

theorem routeIds_of_addBulk {r next : Router ρ ω} {entries : List (String × String)}
    {ids : List Nat} (h : r.addBulk entries = .ok (ids, next)) :
    next.routeIds = r.routeIds ++ ids := by
  obtain ⟨routes, operations, added, hstate, -, rfl, rfl⟩ := addBulk_eq_ok.1 h
  simp [routeIds, close, withState, hstate]

theorem routeIds_respond (r : Router ρ ω) (call : Call ρ) :
    (r.respond call).2.routeIds = r.routeIds ++ Answer.numbered (r.respond call).1 := by
  rcases r.close_or_registers_or_keeps call with
    rfl | ⟨_, _, _, _, hadd, hrespond, rfl⟩ | ⟨hkept, hnumbered⟩
  · cases hstate : r.state <;>
      simp [respond, routeIds, close, withState, hstate, Answer.numbered]
  · rw [hrespond]
    exact routeIds_of_addBulk hadd
  · rw [hkept, hnumbered, List.append_nil]

/-- A router has the routes of the numbers that it has answered, in order. -/
theorem routeIds_after (r : Router ρ ω) (calls : List (Call ρ)) :
    (r.after calls).routeIds = r.routeIds ++ (r.transcript calls).numbers := by
  induction calls generalizing r with
  | nil => exact (List.append_nil _).symm
  | cons call calls ih =>
    rw [after_cons, ih, routeIds_respond, List.append_assoc]
    rfl

/-! ### Before and after the close -/

/-- What a router answers that is not closed: it serves no requests. -/
structure Open (r : Router ρ ω) : Prop where
  isClosed : (r.respond .isClosed).1 = .ok (.closed false)
  snapshot : (r.respond .snapshot).1 = .error .snapshotUnavailable
  find : ∀ path, (r.respond (.find path)).1 = .error .findWhileOpen
  dispatch : ∀ receiver path, (r.respond (.dispatch receiver path)).1 = .error .findWhileOpen

/-- What a router answers that is closed: it registers nothing, serves requests from the snapshot
and hands it out. -/
structure Settled (r : Router ρ ω) (s : Snapshot ρ ω) : Prop where
  isClosed : (r.respond .isClosed).1 = .ok (.closed true)
  close : (r.respond .close).1 = .ok (.snapshot s)
  snapshot : (r.respond .snapshot).1 = .ok (.snapshot s)
  find : ∀ path, (r.respond (.find path)).1 = .ok (.found (s.find path))
  dispatch : ∀ receiver path, (r.respond (.dispatch receiver path)).1 =
    ((s.dispatch receiver path).mapError .dispatch).map .result
  add : ∀ path operation, (r.respond (.add path operation)).1 = .error (.addWhileClosed path)
  addBulk : ∀ entries, (r.respond (.addBulk entries)).1 =
    .error (.bulkAddWhileClosed entries.length)

theorem open_of_isClosed {r : Router ρ ω} (h : r.isClosed = false) : r.Open := by
  obtain ⟨routes, operations, hstate⟩ := isClosed_eq_false_iff.1 h
  constructor <;>
    simp [respond, Router.isClosed, Router.snapshot, Router.find, Router.dispatch, hstate]

theorem settled_of_state {r : Router ρ ω} {s : Snapshot ρ ω} (h : r.state = .closed s) :
    r.Settled s := by
  constructor <;>
    simp [respond, Router.isClosed, Router.close, Router.snapshot, Router.find, Router.dispatch,
      Router.add, Router.addBulk, h]

/-- Only a `close` closes a router. -/
theorem isClosed_respond {r : Router ρ ω} {call : Call ρ} (h : r.isClosed = false)
    (hcall : call ≠ .close) : (r.respond call).2.isClosed = false := by
  rcases r.close_or_registers_or_keeps call with
    rfl | ⟨_, _, _, _, hadd, hrespond, -⟩ | ⟨hkept, -⟩
  · exact absurd rfl hcall
  · rw [hrespond]
    exact (isClosed_of_addBulk hadd).2
  · rwa [hkept]

theorem isClosed_after {r : Router ρ ω} {calls : List (Call ρ)} (h : r.isClosed = false)
    (hcalls : .close ∉ calls) : (r.after calls).isClosed = false := by
  induction calls generalizing r with
  | nil => exact h
  | cons call calls ih =>
    obtain ⟨hcall, hrest⟩ : .close ≠ call ∧ .close ∉ calls := by simpa using hcalls
    exact ih (isClosed_respond h (Ne.symm hcall)) hrest

theorem state_close (r : Router ρ ω) : r.close.2.state = .closed r.close.1 := by
  unfold close
  split
  · next s hstate => exact hstate
  · rfl

theorem respond_of_closed {r : Router ρ ω} {s : Snapshot ρ ω} (h : r.state = .closed s)
    (call : Call ρ) : (r.respond call).2 = r := by
  cases call <;> simp [respond, Router.add, Router.addBulk, Router.close, h]

theorem after_of_closed {r : Router ρ ω} {s : Snapshot ρ ω} (h : r.state = .closed s)
    (calls : List (Call ρ)) : r.after calls = r := by
  induction calls with
  | nil => rfl
  | cons call calls ih => rw [after_cons, respond_of_closed h, ih]

end Router

/-! ### The snapshot -/

/-- The snapshot has the table, the options and a route for each entry of the transcript, under the
number that was answered and made for the operation that the entry names. -/
structure Snapshot.Preserves (s : Snapshot ρ ω) (operations : OperationTable ρ ω)
    (options : RouterOptions) (t : Router.Transcript ρ ω) : Prop where
  operations_eq : s.operations = operations
  options_eq : s.options = options
  length_eq : s.routes.length = t.entries.length
  numbers_eq : t.numbers = List.range s.routes.length
  route : ∀ (i : Nat) (path name : String), t.entries[i]? = some (path, name) →
    ∃ op p, operations.get? name = some op ∧
      Pattern.ofPath options.declaration path op.signature = .ok p ∧
      s.routes[i]? = some ⟨i, p, name, p.parameterTypes⟩

theorem Snapshot.Lists.map_id {s : Snapshot ρ ω} {entries : List (String × String)}
    (h : s.Lists entries) : s.routes.map (·.id) = List.range s.routes.length := by
  refine List.ext_getElem (by simp) fun i hi _ => ?_
  have hlt : i < s.routes.length := by simpa using hi
  rw [List.getElem_map, List.getElem_range]
  exact h.id_eq (List.getElem?_eq_getElem hlt)

namespace Router

variable {operations : OperationTable ρ ω} {options : Option RouterOptions} {r : Router ρ ω}

theorem preserves_close (hr : ofOperations operations options = .ok r) (calls : List (Call ρ)) :
    (r.after calls).close.1.Preserves operations (options.getD {}) (r.transcript calls) := by
  obtain ⟨hoptions, hstate⟩ := ofOperations_eq_ok hr
  obtain ⟨hafter, hentries⟩ := r.after_eq_run calls
  obtain ⟨hops, hkept, hlists⟩ := run_lists hr (calls.flatMap Call.commands)
  rw [← hafter, ← hentries] at hlists
  rw [← hafter] at hops hkept
  refine ⟨hops, hkept.trans hoptions, length_routesOf hlists, ?_, ?_⟩
  · have hnone : r.routeIds = [] := by simp [routeIds, close, hstate]
    have hnumbers := r.routeIds_after calls
    rw [hnone, List.nil_append] at hnumbers
    rw [← hnumbers]
    exact hlists.map_id
  · intro i path name he
    obtain ⟨route, hroute, op, hop, rfl, hof⟩ := hlists.exists_route he
    obtain ⟨p, hp, rfl⟩ := Route.ofPath_eq_ok.1 hof
    rw [hops] at hop
    rw [hkept, hoptions] at hp
    exact ⟨op, p, hop, hp, by rw [hroute, (Pattern.ofPath_eq_ok.1 hp).2.2]⟩

/-- **The life of a router.** Whatever is asked of a router, it is open until the first `close`,
which answers a snapshot made of all that was accepted until then, and settled with this snapshot
from then on. A call that is refused changes nothing. -/
theorem respond_after (hr : ofOperations operations options = .ok r) (calls : List (Call ρ)) :
    (∀ call e, ((r.after calls).respond call).1 = .error e →
      r.after (calls ++ [call]) = r.after calls) ∧
    (.close ∉ calls → (r.after calls).Open) ∧
    ∀ before later, calls = before ++ .close :: later →
      ∃ s, ((r.after before).respond .close).1 = .ok (.snapshot s) ∧
        s.Preserves operations (options.getD {}) (r.transcript before) ∧
        (r.after calls).Settled s := by
  have hopen : r.isClosed = false := by simp [Router.isClosed, (ofOperations_eq_ok hr).2]
  refine ⟨fun call e he => ?_, fun hcalls => open_of_isClosed (isClosed_after hopen hcalls), ?_⟩
  · rw [after_append]
    exact respond_of_error he
  · rintro before later rfl
    refine ⟨(r.after before).close.1, rfl, preserves_close hr before, ?_⟩
    have hstate := (r.after before).state_close
    have hsettled : r.after (before ++ .close :: later) = (r.after before).close.2 := by
      rw [after_append, after_cons]
      exact after_of_closed hstate later
    rw [hsettled]
    exact settled_of_state hstate

end Router

/-! ### A small history -/

namespace Sample

/-- Two entries of four are accepted, one of them in a batch. -/
def registration : List (Router.Call Unit) :=
  [.find "/a", .add "/a/{Integer...}" "list", .add "/a" "away",
    .addBulk [("/b", "home"), ("/{Long}", "home")], .addBulk [("/a", "home")]]

end Sample

/-- The router is closed twice, and an entry comes too late. -/
theorem Router.respond_after_sample :
    let r := Sample.opened .lenient
    let t := r.transcript Sample.registration
    (r.after Sample.registration).Open ∧
    t.entries = [("/a/{Integer...}", "list"), ("/a", "home")] ∧ t.numbers = [0, 1] ∧
    ∃ s, s.Preserves Sample.table {} t ∧ s.routes.length = 2 ∧
      (r.after (Sample.registration ++ [.close, .add "/b" "home", .close])).Settled s := by
  intro r t
  obtain ⟨-, hopen, -⟩ :=
    Router.respond_after (Sample.ofOperations_opened .lenient) Sample.registration
  obtain ⟨-, -, hsettled⟩ := Router.respond_after (Sample.ofOperations_opened .lenient)
    (Sample.registration ++ [.close, .add "/b" "home", .close])
  obtain ⟨s, -, hpreserves, hs⟩ := hsettled Sample.registration _ rfl
  have hentries : t.entries = [("/a/{Integer...}", "list"), ("/a", "home")] := by decide
  have hlength := hpreserves.length_eq.trans (congrArg List.length hentries)
  exact ⟨hopen (by simp [Sample.registration]), hentries, by decide, s, hpreserves, hlength, hs⟩

end TypedRouting
