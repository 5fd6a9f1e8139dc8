import TypedRouting.Proofs.Outcome
import TypedRouting.Routing.Router

/-!
# Histories of a router

A history is a list of commands, each accepted or refused. `Router.run` is the router after a
history and `Router.accepted` the entries of the commands that it accepted.

* `Router.records_step`: a command keeps the table and the options and adds the routes of its
  entries, if it is accepted; a refused one changes nothing.
* `Router.run_lists`: closing a router after a history yields the snapshot whose routes are those
  of all accepted entries, registered in one go from number zero on.
-/

namespace TypedRouting

variable {ρ ω : Type}

/-! ### Commands -/

/-- A call that may change a router. -/
inductive Command
  | add (path operation : String)
  | addBulk (entries : List (String × String))
  | close
  deriving DecidableEq, Repr

/-- The declared paths, each with its operation, that a command registers. -/
def Command.entries : Command → List (String × String)
  | .add path operation => [(path, operation)]
  | .addBulk entries => entries
  | .close => []

namespace Router

/-- The numbers of the routes that a command registers, and the router after it. -/
def execute (r : Router ρ ω) : Command → Except RouterError (List Nat × Router ρ ω)
  | .add path operation => (r.add path operation).map fun (id, next) => ([id], next)
  | .addBulk entries => r.addBulk entries
  | .close => .ok ([], r.close.2)

/-- The router after a command. A refused one leaves it as it is. -/
def step (r : Router ρ ω) (c : Command) : Router ρ ω :=
  match r.execute c with
  | .ok (_, next) => next
  | .error _ => r

/-- The entries that a command registers with the router. -/
def taken (r : Router ρ ω) (c : Command) : List (String × String) :=
  match r.execute c with
  | .ok _ => c.entries
  | .error _ => []

/-- The router after a history. -/
def run (r : Router ρ ω) (history : List Command) : Router ρ ω := history.foldl step r

/-- The entries that a history registers with the router, in order. -/
def accepted (r : Router ρ ω) : List Command → List (String × String)
  | [] => []
  | c :: history => r.taken c ++ (r.step c).accepted history

@[simp]
theorem run_nil (r : Router ρ ω) : r.run [] = r := rfl

@[simp]
theorem run_cons (r : Router ρ ω) (c : Command) (history : List Command) :
    r.run (c :: history) = (r.step c).run history := rfl

theorem run_append (r : Router ρ ω) (before later : List Command) :
    r.run (before ++ later) = (r.run before).run later := List.foldl_append

theorem accepted_append (r : Router ρ ω) (before later : List Command) :
    r.accepted (before ++ later) = r.accepted before ++ (r.run before).accepted later := by
  induction before generalizing r with
  | nil => rfl
  | cons c before ih =>
    rw [List.cons_append, accepted, ih, accepted, List.append_assoc, run_cons]

end Router

/-! ### Routes of a list of entries -/

section Routes

variable {options : RouterOptions} {operations : OperationTable ρ ω}

namespace Router

theorem routeOf_eq_ok {id : Nat} {path name : String} {route : Route}
    (h : routeOf options operations id path name = .ok route) :
    ∃ op, operations.get? name = some op ∧ op.name = name ∧
      Route.ofPath options.declaration id path op = .ok route := by
  unfold routeOf at h
  cases hop : operations.get? name with
  | none => simp [hop] at h
  | some op => exact ⟨op, rfl, OperationTable.name_of_get? hop, by simpa [hop] using h⟩

theorem routesOf_cons_eq_ok {id : Nat} {path name : String} {rest : List (String × String)}
    {routes : List Route} :
    routesOf options operations id ((path, name) :: rest) = .ok routes ↔
      ∃ route others, routeOf options operations id path name = .ok route ∧
        routesOf options operations (id + 1) rest = .ok others ∧ routes = route :: others := by
  rw [routesOf]
  cases routeOf options operations id path name with
  | error e => simp
  | ok route => simp [@eq_comm _ routes]

theorem length_routesOf {entries : List (String × String)} {id : Nat} {routes : List Route}
    (h : routesOf options operations id entries = .ok routes) :
    routes.length = entries.length := by
  induction entries generalizing id routes with
  | nil => simp_all [routesOf]
  | cons e rest ih =>
    obtain ⟨route, others, -, hrest, rfl⟩ := routesOf_cons_eq_ok.1 h
    simp [ih hrest]

/-- The entries of two batches make the routes of the one, then those of the other. -/
theorem routesOf_append {first second : List (String × String)} {id : Nat}
    {routes added : List Route} (h₁ : routesOf options operations id first = .ok routes)
    (h₂ : routesOf options operations (id + routes.length) second = .ok added) :
    routesOf options operations id (first ++ second) = .ok (routes ++ added) := by
  induction first generalizing id routes with
  | nil =>
    obtain rfl : routes = [] := by simpa [routesOf, eq_comm] using h₁
    simpa using h₂
  | cons e rest ih =>
    obtain ⟨route, others, hroute, hrest, rfl⟩ := routesOf_cons_eq_ok.1 h₁
    have hadded : routesOf options operations (id + 1 + others.length) second = .ok added := by
      rw [← h₂, List.length_cons]
      congr 1
      omega
    exact routesOf_cons_eq_ok.2 ⟨route, others ++ added, hroute, ih hrest hadded, rfl⟩

/-- Route number `i` of a list is made from entry number `i`. -/
theorem getElem?_routesOf {entries : List (String × String)} {id : Nat} {routes : List Route}
    (h : routesOf options operations id entries = .ok routes) {i : Nat} {path name : String}
    (he : entries[i]? = some (path, name)) :
    ∃ route, routes[i]? = some route ∧
      routeOf options operations (id + i) path name = .ok route := by
  induction entries generalizing id routes i with
  | nil => simp at he
  | cons e rest ih =>
    obtain ⟨route, others, hroute, hrest, rfl⟩ := routesOf_cons_eq_ok.1 h
    cases i with
    | zero =>
      obtain rfl : e = (path, name) := by simpa using he
      exact ⟨route, rfl, hroute⟩
    | succ i =>
      obtain ⟨found, hfound, hof⟩ := ih hrest (by simpa using he)
      refine ⟨found, by simpa using hfound, ?_⟩
      rwa [show id + (i + 1) = id + 1 + i by omega]

end Router
end Routes

/-! ### Single entries and batches -/

namespace Router

variable {r : Router ρ ω}

theorem isClosed_eq_false_iff :
    r.isClosed = false ↔ ∃ routes operations, r.state = .registering routes operations := by
  unfold isClosed
  cases r.state <;> simp

theorem addBulk_eq_ok {entries : List (String × String)} {ids : List Nat} {next : Router ρ ω} :
    r.addBulk entries = .ok (ids, next) ↔ ∃ routes operations added,
      r.state = .registering routes operations ∧
      routesOf r.options operations routes.length entries = .ok added ∧
      added.map (·.id) = ids ∧ r.withState (.registering (routes ++ added) operations) = next := by
  constructor
  · intro h
    unfold addBulk at h
    split at h
    · cases h
    · next routes operations hstate =>
      obtain ⟨added, hadded, hpair⟩ := Outcome.map_eq_ok.1 h
      cases hpair
      exact ⟨routes, operations, added, hstate, hadded, rfl, rfl⟩
  · rintro ⟨routes, operations, added, hstate, hadded, rfl, rfl⟩
    simp [addBulk, hstate, hadded]

/-- To add one entry is to add a batch of one. -/
theorem addBulk_of_add {path name : String} {id : Nat} {next : Router ρ ω}
    (h : r.add path name = .ok (id, next)) : r.addBulk [(path, name)] = .ok ([id], next) := by
  unfold add at h
  split at h
  · cases h
  · next routes operations hstate =>
    obtain ⟨route, hroute, hpair⟩ := Outcome.map_eq_ok.1 h
    cases hpair
    refine addBulk_eq_ok.2 ⟨routes, operations, [route], hstate, ?_, rfl, rfl⟩
    exact routesOf_cons_eq_ok.2 ⟨route, [], hroute, rfl, rfl⟩

/-- A router that accepts a batch is open, and so is the one after it. -/
theorem isClosed_of_addBulk {entries : List (String × String)} {ids : List Nat}
    {next : Router ρ ω} (h : r.addBulk entries = .ok (ids, next)) :
    r.isClosed = false ∧ next.isClosed = false := by
  obtain ⟨routes, operations, added, hstate, -, -, rfl⟩ := addBulk_eq_ok.1 h
  exact ⟨isClosed_eq_false_iff.2 ⟨routes, operations, hstate⟩, rfl⟩

/-- A command that is accepted and does not close the router is a batch of its entries. -/
theorem addBulk_of_execute {c : Command} {ids : List Nat} {next : Router ρ ω}
    (hc : c ≠ .close) (h : r.execute c = .ok (ids, next)) :
    r.addBulk c.entries = .ok (ids, next) := by
  cases c with
  | add path name =>
    obtain ⟨⟨id, next⟩, hadd, hnext⟩ := Outcome.map_eq_ok.1 h
    cases hnext
    exact addBulk_of_add hadd
  | addBulk entries => exact h
  | close => exact absurd rfl hc

end Router

/-! ### What a history leaves behind -/

/-- The routes of the snapshot are those of the entries, registered in one go. -/
def Snapshot.Lists (s : Snapshot ρ ω) (entries : List (String × String)) : Prop :=
  Router.routesOf s.options s.operations 0 entries = .ok s.routes

namespace Router

/-- Closed now, the router keeps the table and its options and lists the entries. -/
structure Records (r : Router ρ ω) (operations : OperationTable ρ ω)
    (entries : List (String × String)) : Prop where
  operations_eq : r.close.1.operations = operations
  options_eq : r.close.1.options = r.options
  lists : r.close.1.Lists entries

variable {r : Router ρ ω} {operations : OperationTable ρ ω} {entries : List (String × String)}

theorem ofOperations_eq_ok {options : Option RouterOptions}
    (h : ofOperations operations options = .ok r) :
    r.options = options.getD {} ∧ r.state = .registering [] operations := by
  unfold ofOperations RouterOptions.validate at h
  split at h
  · next hvalid =>
    split at hvalid
    · cases hvalid
      cases h
      exact ⟨rfl, rfl⟩
    · cases hvalid
  · cases h

theorem records_ofOperations {options : Option RouterOptions}
    (h : ofOperations operations options = .ok r) : r.Records operations [] := by
  obtain ⟨-, hstate⟩ := ofOperations_eq_ok h
  have hclose : r.close.1 = ⟨[], operations, r.options⟩ := by simp [close, hstate]
  refine ⟨by rw [hclose], by rw [hclose], ?_⟩
  rw [hclose]
  rfl

theorem records_close (h : r.Records operations entries) :
    r.close.2.Records operations entries ∧ r.close.2.options = r.options := by
  obtain ⟨options, valid, _ | s⟩ := r
  · exact ⟨⟨h.operations_eq, rfl, h.lists⟩, rfl⟩
  · exact ⟨h, rfl⟩

theorem records_addBulk (h : r.Records operations entries) {more : List (String × String)}
    {ids : List Nat} {next : Router ρ ω} (hadd : r.addBulk more = .ok (ids, next)) :
    next.Records operations (entries ++ more) ∧ next.options = r.options := by
  obtain ⟨routes, table, added, hstate, hadded, -, rfl⟩ := addBulk_eq_ok.1 hadd
  obtain ⟨hops, -, hlists⟩ := h
  simp only [close, hstate, Snapshot.Lists] at hops hlists
  subst hops
  refine ⟨⟨rfl, rfl, ?_⟩, rfl⟩
  exact routesOf_append hlists (by rwa [Nat.zero_add])

/-- An accepted command adds the routes of its entries, a refused one changes nothing. -/
theorem records_step (h : r.Records operations entries) (c : Command) :
    (r.step c).Records operations (entries ++ r.taken c) ∧ (r.step c).options = r.options := by
  cases hexec : r.execute c with
  | error e => simpa [step, taken, hexec] using h
  | ok result =>
    obtain ⟨ids, next⟩ := result
    simp only [step, taken, hexec]
    by_cases hc : c = .close
    · subst hc
      obtain ⟨-, rfl⟩ : [] = ids ∧ r.close.2 = next := by simpa [execute] using hexec
      simpa [Command.entries] using records_close h
    · exact records_addBulk h (addBulk_of_execute hc hexec)

theorem records_run (h : r.Records operations entries) (history : List Command) :
    (r.run history).Records operations (entries ++ r.accepted history) ∧
      (r.run history).options = r.options := by
  induction history generalizing r entries with
  | nil => simpa [accepted] using h
  | cons c history ih =>
    obtain ⟨hstep, hoptions⟩ := records_step h c
    obtain ⟨hrun, hkept⟩ := ih hstep
    exact ⟨by simpa [accepted] using hrun, hkept.trans hoptions⟩

/-- **Histories are batches.** Closing a router after a history yields the table and the options
that it was made for, and the routes of all accepted entries, registered in one go. -/
theorem run_lists {options : Option RouterOptions} (h : ofOperations operations options = .ok r)
    (history : List Command) :
    (r.run history).close.1.operations = operations ∧
      (r.run history).close.1.options = r.options ∧
      (r.run history).close.1.Lists (r.accepted history) := by
  obtain ⟨hrun, hkept⟩ := records_run (records_ofOperations h) history
  exact ⟨hrun.operations_eq, hrun.options_eq.trans hkept, by simpa using hrun.lists⟩

end Router

/-! ### Routes and entries of a snapshot -/

namespace Snapshot

variable {s : Snapshot ρ ω} {entries : List (String × String)} {i : Nat}

/-- The route is made from an entry for an operation of the table, under its number. -/
def Makes (s : Snapshot ρ ω) (i : Nat) (path name : String) (route : Route) : Prop :=
  ∃ op, s.operations.get? name = some op ∧ op.name = name ∧
    Route.ofPath s.options.declaration i path op = .ok route

theorem Lists.exists_route (h : s.Lists entries) {path name : String}
    (he : entries[i]? = some (path, name)) :
    ∃ route, s.routes[i]? = some route ∧ s.Makes i path name route := by
  obtain ⟨route, hroute, hof⟩ := Router.getElem?_routesOf h he
  rw [Nat.zero_add] at hof
  exact ⟨route, hroute, Router.routeOf_eq_ok hof⟩

theorem Lists.exists_entry (h : s.Lists entries) {route : Route} (hr : s.routes[i]? = some route) :
    ∃ path name, entries[i]? = some (path, name) ∧ s.Makes i path name route := by
  have hi : i < entries.length := by
    rw [← Router.length_routesOf h]
    exact (List.getElem?_eq_some_iff.1 hr).1
  have he : entries[i]? = some (entries[i].1, entries[i].2) := List.getElem?_eq_getElem hi
  obtain ⟨found, hfound, hmakes⟩ := h.exists_route he
  obtain rfl : route = found := Option.some.inj (hr.symm.trans hfound)
  exact ⟨entries[i].1, entries[i].2, he, hmakes⟩

theorem Lists.id_eq (h : s.Lists entries) {route : Route} (hr : s.routes[i]? = some route) :
    route.id = i := by
  obtain ⟨path, name, -, op, -, -, hof⟩ := h.exists_entry hr
  obtain ⟨pattern, -, rfl⟩ := Outcome.map_eq_ok.1 hof
  rfl

end Snapshot

/-! ### A small router -/

namespace Sample

/-- The number of items in an array. -/
def listing : Operation Unit Nat :=
  ⟨"list", [.array (.whole .integer)], .typed fun _ inputs => .ok inputs.1.length⟩

/-- An operation without parameters that fails. -/
def home : Operation Unit Nat := ⟨"home", [], .dynamic fun _ _ => .error ⟨"closed", []⟩⟩

def table : OperationTable Unit Nat := .ofList [listing, home]

/-- A router of no routes. -/
def opened (mode : ScoringMode) : Router Unit Nat :=
  ⟨{ scoringMode := mode }, Nat.succ_pos 63, .registering [] table⟩

theorem ofOperations_opened (mode : ScoringMode) :
    Router.ofOperations table (some { scoringMode := mode }) = .ok (opened mode) := rfl

/-- An array after `a`, then `a` alone. -/
def history : List Command := [.add "/a/{Integer...}" "list", .add "/a" "home"]

end Sample
end TypedRouting
