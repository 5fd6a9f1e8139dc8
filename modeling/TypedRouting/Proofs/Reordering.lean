import TypedRouting.Proofs.Selection

/-!
# The order of registration

What a request finds in routers that register the same entries in different orders.

* `TieBreak.Decides.mirror`: numbered from the other end, what is taken out of the matches is what
  the other tie-break takes.
* `Snapshot.Kin.exists_mem_scoreAll`: an entry has its score wherever it stands in the list.
* `Router.find_of_perm`: so the order decides among routes of the highest score only.
-/

namespace TypedRouting

variable {ρ ω : Type}

/-! ### The other tie-break -/

/-- The number counted from the other end of a list of `n` routes. -/
def RouteMatch.mirror (n : Nat) (m : RouteMatch) : RouteMatch := ⟨n - 1 - m.id, m.score⟩

theorem RouteMatch.getElem?_mirror {α : Type} {xs : List α} {m : RouteMatch}
    (h : m.id < xs.length) : xs.reverse[(m.mirror xs.length).id]? = xs[m.id]? := by
  have hlt : xs.length - 1 - m.id < xs.length := by omega
  have hback : xs.length - 1 - (xs.length - 1 - m.id) = m.id := by omega
  rw [mirror, List.getElem?_reverse hlt, hback]

/-- The matches of the first list, numbered from the other end, are in the second. -/
structure RouteMatch.Mirrored (n : Nat) (ms ms' : List RouteMatch) : Prop where
  id_lt : ∀ m ∈ ms, m.id < n
  mem : ∀ m ∈ ms, m.mirror n ∈ ms'

namespace TieBreak

/-- The other tie-break. -/
def flip : TieBreak → TieBreak
  | .firstRegistered => .lastRegistered
  | .lastRegistered => .firstRegistered

variable {t t' : TieBreak} {ms ms' : List RouteMatch} {best best' : Option RouteMatch} {n : Nat}

theorem leads_flip_mirror {i j : Nat} (hi : i < n) (hj : j < n) (h : t.Leads i (n - 1 - j)) :
    t.flip.Leads (n - 1 - i) j := by
  cases t with
  | firstRegistered =>
    change i ≤ n - 1 - j at h
    change j ≤ n - 1 - i
    omega
  | lastRegistered =>
    change n - 1 - j ≤ i at h
    change n - 1 - i ≤ j
    omega

theorem Selects.mirror {m : RouteMatch} (h : t.Selects ms m)
    (hms : RouteMatch.Mirrored n ms ms') (hms' : RouteMatch.Mirrored n ms' ms) :
    t.flip.Selects ms' (m.mirror n) := by
  refine ⟨hms.mem m h.mem, h.pos, fun other ho => ?_, fun other ho hscore => ?_⟩
  · exact h.score_le (other.mirror n) (hms'.mem other ho)
  · have hleads : t.Leads m.id (n - 1 - other.id) :=
      h.leads (other.mirror n) (hms'.mem other ho) hscore
    exact leads_flip_mirror (hms.id_lt m h.mem) (hms'.id_lt other ho) hleads

/-- Of the same matches, numbered from the other end, the other tie-break takes the same one. -/
theorem Decides.mirror (h : t.Decides ms best) (hms : RouteMatch.Mirrored n ms ms')
    (hms' : RouteMatch.Mirrored n ms' ms) : t.flip.Decides ms' (best.map (·.mirror n)) := by
  cases best with
  | none => exact fun other ho => h (other.mirror n) (hms'.mem other ho)
  | some m => exact Selects.mirror h hms hms'

theorem Decides.unique (h : t.Decides ms best) (h' : t.Decides ms best') : best = best' := by
  cases best' with
  | none => exact h.eq_none_iff.2 h'
  | some m => exact (h.eq_some_iff m).2 h'

/-- The highest score does not depend on the order of the matches or on the tie-break. -/
theorem Decides.map_score_eq (h : t.Decides ms best) (h' : t'.Decides ms' best')
    (hscore : ∀ x ∈ ms, ∃ y ∈ ms', y.score = x.score)
    (hscore' : ∀ y ∈ ms', ∃ x ∈ ms, x.score = y.score) :
    best.map (·.score) = best'.map (·.score) := by
  cases best with
  | none =>
    have hnone : best' = none := by
      refine h'.eq_none_iff.2 fun y hy => ?_
      obtain ⟨x, hx, hxy⟩ := hscore' y hy
      exact hxy.symm.trans (h x hx)
    rw [hnone]
  | some m =>
    obtain ⟨y, hy, hym⟩ := hscore m (Selects.mem h)
    have hpos := Selects.pos h
    cases best' with
    | none =>
      have hzero : y.score = 0 := h' y hy
      omega
    | some m' =>
      obtain ⟨x, hx, hxm⟩ := hscore' m' (Selects.mem h')
      have hle := Selects.score_le h x hx
      have hge := Selects.score_le h' y hy
      simp only [Option.map_some, Option.some.injEq]
      omega

end TieBreak

/-! ### The same entries in another order -/

/-- The options with another tie-break. -/
def RouterOptions.withTieBreak (o : RouterOptions) (t : TieBreak) : RouterOptions :=
  { o with tieBreak := t }

theorem Route.ofPath_renumber {options : DeclarationOptions} {i : Nat} {path : String}
    {op : Operation ρ ω} {route : Route} (h : Route.ofPath options i path op = .ok route)
    (j : Nat) : Route.ofPath options j path op = .ok { route with id := j } := by
  obtain ⟨p, hp, rfl⟩ := Outcome.map_eq_ok.1 h
  exact Outcome.map_eq_ok.2 ⟨p, hp, rfl⟩

namespace Snapshot

/-- The snapshots list these entries, for the same operations and under the same options up to the
tie-break. -/
structure Kin (s s' : Snapshot ρ ω) (entries reordered : List (String × String)) : Prop where
  operations_eq : s'.operations = s.operations
  options_eq : s'.options = s.options.withTieBreak s'.options.tieBreak
  lists : s.Lists entries
  lists' : s'.Lists reordered

variable {s s' : Snapshot ρ ω} {entries reordered : List (String × String)} {path : String}
  {m m' : RouteMatch}

theorem Lists.id_lt (h : s.Lists entries) (hm : m ∈ s.scoreAll path) : m.id < entries.length := by
  obtain ⟨route, hroute, -⟩ := h.mem_scoreAll_iff.1 hm
  rw [← Router.length_routesOf h]
  exact (List.getElem?_eq_some_iff.1 hroute).1

theorem Lists.mem_of_find (h : s.Lists entries) (hm : s.find path = some m) :
    m ∈ s.scoreAll path :=
  (((h.decides_find path).eq_some_iff m).1 hm).mem

namespace Kin

theorem symm (h : s.Kin s' entries reordered) : s'.Kin s reordered entries := by
  refine ⟨h.operations_eq.symm, ?_, h.lists', h.lists⟩
  rw [h.options_eq]
  rfl

theorem declaration_eq (h : s.Kin s' entries reordered) :
    s'.options.declaration = s.options.declaration := by
  rw [h.options_eq]
  rfl

theorem scoring_eq (h : s.Kin s' entries reordered) : s'.options.scoring = s.options.scoring := by
  rw [h.options_eq]
  rfl

theorem maxSegments_eq (h : s.Kin s' entries reordered) :
    s'.options.maxSegments = s.options.maxSegments := by
  rw [h.options_eq]
  rfl

/-- An entry makes the same route in both, up to the number. -/
theorem getElem?_routes (h : s.Kin s' entries reordered) {i j : Nat}
    (hentry : reordered[j]? = entries[i]?) {route : Route} (hroute : s.routes[i]? = some route) :
    s'.routes[j]? = some { route with id := j } := by
  obtain ⟨path, name, he, op, hop, -, hof⟩ := h.lists.exists_entry hroute
  obtain ⟨route', hroute', op', hop', -, hof'⟩ := h.lists'.exists_route (hentry.trans he)
  rw [h.operations_eq] at hop'
  obtain rfl : op' = op := Option.some.inj (hop'.symm.trans hop)
  rw [h.declaration_eq] at hof'
  have hsame : { route with id := j } = route' :=
    Except.ok.inj ((Route.ofPath_renumber hof j).symm.trans hof')
  rw [hroute', hsame]

/-- An entry has the same score in both. -/
theorem mem_scoreAll (h : s.Kin s' entries reordered) (hm : m ∈ s.scoreAll path) {j : Nat}
    (hentry : reordered[j]? = entries[m.id]?) : ⟨j, m.score⟩ ∈ s'.scoreAll path := by
  obtain ⟨route, hroute, hscore⟩ := h.lists.mem_scoreAll_iff.1 hm
  refine h.lists'.mem_scoreAll_iff.2 ⟨_, h.getElem?_routes hentry hroute, ?_⟩
  rw [h.scoring_eq, h.maxSegments_eq]
  exact hscore

/-- Every score of the one is a score of the other, and belongs to the same entry. -/
theorem exists_mem_scoreAll (h : s.Kin s' entries reordered) (hsub : entries ⊆ reordered)
    (hm : m ∈ s.scoreAll path) :
    ∃ m' ∈ s'.scoreAll path, m'.score = m.score ∧ reordered[m'.id]? = entries[m.id]? := by
  have hlt := h.lists.id_lt hm
  have he : entries[m.id]? = some entries[m.id] := List.getElem?_eq_getElem hlt
  obtain ⟨j, hj⟩ := List.getElem?_of_mem (hsub (List.mem_of_getElem? he))
  have hentry : reordered[j]? = entries[m.id]? := hj.trans he.symm
  exact ⟨⟨j, m.score⟩, h.mem_scoreAll hm hentry, rfl, hentry⟩

/-- Routes made of the same entry are called alike. -/
theorem dispatch_eq (h : s.Kin s' entries reordered) (hm : s.find path = some m)
    (hm' : s'.find path = some m') (hentry : reordered[m'.id]? = entries[m.id]?) (receiver : ρ) :
    s'.dispatch receiver path = s.dispatch receiver path := by
  obtain ⟨route, hroute, -, -⟩ := h.lists.route_of_find hm
  have hroute' := h.getElem?_routes hentry hroute
  rw [dispatch_of_find_some hm hroute, dispatch_of_find_some hm' hroute', invoke, invoke,
    h.operations_eq]

/-! ### The reverse order -/

theorem mirrored (h : s.Kin s' entries entries.reverse) (path : String) :
    RouteMatch.Mirrored entries.length (s.scoreAll path) (s'.scoreAll path) where
  id_lt _ hm := h.lists.id_lt hm
  mem _ hm := h.mem_scoreAll hm (RouteMatch.getElem?_mirror (h.lists.id_lt hm))

theorem mirrored_symm (h : s.Kin s' entries entries.reverse) (path : String) :
    RouteMatch.Mirrored entries.length (s'.scoreAll path) (s.scoreAll path) := by
  have hsymm : s'.Kin s entries.reverse entries.reverse.reverse := by
    rw [List.reverse_reverse]
    exact h.symm
  simpa using hsymm.mirrored path

theorem find_reverse (h : s.Kin s' entries entries.reverse)
    (htie : s'.options.tieBreak = s.options.tieBreak.flip) (path : String) :
    s'.find path = (s.find path).map (·.mirror entries.length) := by
  have hdecides := (h.lists.decides_find path).mirror (h.mirrored path) (h.mirrored_symm path)
  rw [← htie] at hdecides
  exact (h.lists'.decides_find path).unique hdecides

theorem dispatch_reverse (h : s.Kin s' entries entries.reverse)
    (htie : s'.options.tieBreak = s.options.tieBreak.flip) (path : String) (receiver : ρ) :
    s'.dispatch receiver path = s.dispatch receiver path := by
  have hfind' := h.find_reverse htie path
  cases hfind : s.find path with
  | none =>
    rw [hfind] at hfind'
    rw [dispatch_of_find_none hfind, dispatch_of_find_none hfind']
  | some m =>
    rw [hfind] at hfind'
    have hlt := h.lists.id_lt (h.lists.mem_of_find hfind)
    exact h.dispatch_eq hfind hfind' (RouteMatch.getElem?_mirror hlt) receiver

/-! ### Any order -/

theorem map_score_find (h : s.Kin s' entries reordered) (hperm : reordered.Perm entries)
    (path : String) : (s'.find path).map (·.score) = (s.find path).map (·.score) := by
  have hscores : ∀ x ∈ s'.scoreAll path, ∃ y ∈ s.scoreAll path, y.score = x.score := by
    intro x hx
    obtain ⟨y, hy, hscore, -⟩ := h.symm.exists_mem_scoreAll hperm.subset hx
    exact ⟨y, hy, hscore⟩
  have hscores' : ∀ y ∈ s.scoreAll path, ∃ x ∈ s'.scoreAll path, x.score = y.score := by
    intro y hy
    obtain ⟨x, hx, hscore, -⟩ := h.exists_mem_scoreAll hperm.symm.subset hy
    exact ⟨x, hx, hscore⟩
  exact (h.lists'.decides_find path).map_score_eq (h.lists.decides_find path) hscores hscores'

/-- The only match of the highest score is found in every order. -/
theorem find_of_only (h : s.Kin s' entries reordered) (hperm : reordered.Perm entries)
    (hm : s.find path = some m)
    (honly : ∀ other ∈ s.scoreAll path, other.score = m.score → other = m) :
    ∃ m', s'.find path = some m' ∧ m'.score = m.score ∧ reordered[m'.id]? = entries[m.id]? := by
  have hscores := h.map_score_find hperm path
  rw [hm, Option.map_some, Option.map_eq_some_iff] at hscores
  obtain ⟨m', hm', hscore⟩ := hscores
  have hmem' := h.lists'.mem_of_find hm'
  -- in the old order, the entry of `m'` has the score of `m` too
  obtain ⟨other, ho, hother, hentry⟩ := h.symm.exists_mem_scoreAll hperm.subset hmem'
  obtain rfl : other = m := honly other ho (hother.trans hscore)
  exact ⟨m', hm', hscore, hentry.symm⟩

end Kin
end Snapshot

/-! ### Registration in another order -/

namespace Router

variable {r : Router ρ ω} {operations : OperationTable ρ ω} {options : Option RouterOptions}

/-- The router with another tie-break. -/
def withTieBreak (r : Router ρ ω) (t : TieBreak) : Router ρ ω :=
  ⟨r.options.withTieBreak t, r.valid, r.state⟩

theorem ofOperations_withTieBreak (h : ofOperations operations options = .ok r) (t : TieBreak) :
    ofOperations operations (some (r.options.withTieBreak t)) = .ok (r.withTieBreak t) := by
  obtain ⟨-, hstate⟩ := ofOperations_eq_ok h
  have hvalid : (r.options.withTieBreak t).Valid := r.valid
  simp [ofOperations, RouterOptions.validate, hvalid, withTieBreak, hstate]

/-- The entry makes a route, under any number. -/
def Routable (options : RouterOptions) (operations : OperationTable ρ ω)
    (entry : String × String) : Prop :=
  ∀ id, ∃ route, routeOf options operations id entry.1 entry.2 = .ok route

theorem routable_of_routeOf {options : RouterOptions} {entry : String × String} {id : Nat}
    {route : Route} (h : routeOf options operations id entry.1 entry.2 = .ok route) :
    Routable options operations entry := by
  intro j
  obtain ⟨op, hop, -, hof⟩ := routeOf_eq_ok h
  refine ⟨{ route with id := j }, ?_⟩
  simp [routeOf, hop, Route.ofPath_renumber hof j]

theorem routable_of_mem {s : Snapshot ρ ω} {entries : List (String × String)}
    (h : s.Lists entries) {entry : String × String} (he : entry ∈ entries) :
    Routable s.options s.operations entry := by
  obtain ⟨i, hi⟩ := List.getElem?_of_mem he
  obtain ⟨route, -, hof⟩ := getElem?_routesOf h hi
  exact routable_of_routeOf hof

/-- An open router accepts one by one all entries that make routes. -/
theorem accepted_of_routable {entries : List (String × String)} {routes : List Route}
    (hstate : r.state = .registering routes operations)
    (h : ∀ entry ∈ entries, Routable r.options operations entry) :
    r.accepted (entries.map fun (path, name) => .add path name) = entries := by
  induction entries generalizing r routes with
  | nil => rfl
  | cons entry rest ih =>
    obtain ⟨path, name⟩ := entry
    obtain ⟨route, hroute⟩ := h (path, name) (by simp) routes.length
    have hexec : r.execute (.add path name) =
        .ok ([route.id], r.withState (.registering (routes ++ [route]) operations)) := by
      simp [execute, add, hstate, hroute]
    rw [List.map_cons, accepted, taken, step, hexec]
    simp only [Command.entries, List.singleton_append, List.cons.injEq, true_and]
    exact ih rfl fun entry he => h entry (List.mem_cons_of_mem _ he)

/-- The entries that a router accepts are accepted in every order. -/
theorem accepted_of_perm (hr : ofOperations operations options = .ok r) (history : List Command)
    {reordered : List (String × String)} (hperm : reordered.Perm (r.accepted history))
    (t : TieBreak) : (r.withTieBreak t).accepted
      (reordered.map fun (path, name) => .add path name) = reordered := by
  obtain ⟨-, hstate⟩ := ofOperations_eq_ok (ofOperations_withTieBreak hr t)
  obtain ⟨hoperations, hoptions, hlists⟩ := run_lists hr history
  refine accepted_of_routable hstate fun entry he => ?_
  have hroutable := routable_of_mem hlists (hperm.subset he)
  rw [hoperations, hoptions] at hroutable
  exact hroutable

theorem kin_run (hr : ofOperations operations options = .ok r) (t : TieBreak)
    (history history' : List Command) :
    (r.run history).close.1.Kin ((r.withTieBreak t).run history').close.1
      (r.accepted history) ((r.withTieBreak t).accepted history') := by
  obtain ⟨hoperations, hoptions, hlists⟩ := run_lists hr history
  obtain ⟨hoperations', hoptions', hlists'⟩ :=
    run_lists (ofOperations_withTieBreak hr t) history'
  refine ⟨hoperations'.trans hoperations.symm, ?_, hlists, hlists'⟩
  rw [hoptions', hoptions]
  rfl

/-- **Reordering.** The entries that a router accepts are accepted in every order, whatever the
tie-break. In the reverse order and under the other tie-break, a request finds the same entry with
the same score and has the same result. In any order it finds the same score, and the same entry
and result if no other entry has that score. -/
theorem find_of_perm (hr : ofOperations operations options = .ok r) (history : List Command)
    {reordered : List (String × String)} (hperm : reordered.Perm (r.accepted history))
    (t : TieBreak) (path : String) :
    let s := (r.run history).close.1
    let r' := r.withTieBreak t
    ofOperations operations (some (r.options.withTieBreak t)) = .ok r' ∧
    r'.accepted (reordered.map fun (path, name) => .add path name) = reordered ∧
    ∀ history', r'.accepted history' = reordered →
      let s' := (r'.run history').close.1
      (t = r.options.tieBreak.flip → reordered = (r.accepted history).reverse →
        s'.find path = (s.find path).map (·.mirror reordered.length) ∧
          ∀ receiver, s'.dispatch receiver path = s.dispatch receiver path) ∧
      (s'.find path).map (·.score) = (s.find path).map (·.score) ∧
      ∀ m, s.find path = some m →
        (∀ other ∈ s.scoreAll path, other.score = m.score → other = m) →
        ∃ m', s'.find path = some m' ∧ m'.score = m.score ∧
          reordered[m'.id]? = (r.accepted history)[m.id]? ∧
          ∀ receiver, s'.dispatch receiver path = s.dispatch receiver path := by
  intro s r'
  have hr' : ofOperations operations _ = .ok r' := ofOperations_withTieBreak hr t
  refine ⟨hr', accepted_of_perm hr history hperm t, fun history' haccepted => ?_⟩
  intro s'
  have hkin : s.Kin s' (r.accepted history) (r'.accepted history') := kin_run hr t history history'
  rw [haccepted] at hkin
  refine ⟨fun htie hreverse => ?_, hkin.map_score_find hperm path, fun m hm honly => ?_⟩
  · subst hreverse
    have hflip : s'.options.tieBreak = s.options.tieBreak.flip := by
      have hoptions : s.options = r.options := (run_lists hr history).2.1
      have hoptions' : s'.options = r'.options := (run_lists hr' history').2.1
      rw [hoptions', hoptions]
      exact htie
    rw [List.length_reverse]
    exact ⟨hkin.find_reverse hflip path, hkin.dispatch_reverse hflip path⟩
  · obtain ⟨m', hm', hscore, hentry⟩ := hkin.find_of_only hperm hm honly
    exact ⟨m', hm', hscore, hentry, hkin.dispatch_eq hm hm' hentry⟩

/-- Two routes have the highest score for `/a`, and one has it for `/a/1`. -/
theorem find_of_perm_sample :
    let r := Sample.opened .lenient
    let r' := r.withTieBreak .lastRegistered
    let s := (r.run Sample.history).close.1
    let s' := (r'.run [.add "/a" "home", .add "/a/{Integer...}" "list"]).close.1
    s.find "/a" = some ⟨0, 4⟩ ∧ s'.find "/a" = some ⟨1, 4⟩ ∧
      s'.dispatch () "/a" = s.dispatch () "/a" ∧
      s.find "/a/1" = some ⟨0, 6⟩ ∧ s'.dispatch () "/a/1" = s.dispatch () "/a/1" := by
  intro r r' s s'
  have hr := Sample.ofOperations_opened .lenient
  have hperm := List.reverse_perm (r.accepted Sample.history)
  have hfind : s.find "/a" = some ⟨0, 4⟩ := by decide
  have hother : s.find "/a/1" = some ⟨0, 6⟩ := by decide
  have honly : ∀ other ∈ s.scoreAll "/a/1", other.score = 6 → other = ⟨0, 6⟩ := by decide
  obtain ⟨-, haccepted, hkept⟩ := find_of_perm hr Sample.history hperm .lastRegistered "/a"
  obtain ⟨-, -, hkept'⟩ := find_of_perm hr Sample.history hperm .lastRegistered "/a/1"
  obtain ⟨hreverse, -, -⟩ := hkept _ haccepted
  obtain ⟨hfind', hdispatch⟩ := hreverse rfl rfl
  obtain ⟨-, -, honce⟩ := hkept' _ haccepted
  obtain ⟨m', -, -, -, hdispatch'⟩ := honce _ hother honly
  rw [hfind] at hfind'
  exact ⟨hfind, hfind', hdispatch (), hother, hdispatch' ()⟩

end Router
end TypedRouting
