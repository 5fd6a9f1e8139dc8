import Mathlib.Data.List.Induction
import TypedRouting.Proofs.Registration

/-!
# The selected route

`TieBreak.Selects` says which match is taken out of a list: one of the highest score, which is not
zero, and of those the first or the last in the order of the numbers.

* `TieBreak.decides_foldl`: one pass over a list in ascending order of the numbers keeps the match
  that the tie-break selects, and none just where every score is zero.
* `Router.find_iff_selects`: the route found for a request is selected out of all scores, and it is
  the route whose operation is called.
-/

namespace TypedRouting

variable {ρ ω : Type}

namespace TieBreak

/-- The number `i` goes before `j`, or is `j`. -/
def Leads : TieBreak → Nat → Nat → Prop
  | .firstRegistered, i, j => i ≤ j
  | .lastRegistered, i, j => j ≤ i

theorem leads_refl (t : TieBreak) (i : Nat) : t.Leads i i := by cases t <;> exact Nat.le_refl i

theorem leads_antisymm {t : TieBreak} {i j : Nat} (h : t.Leads i j) (h' : t.Leads j i) : i = j := by
  cases t with
  | firstRegistered => exact Nat.le_antisymm h h'
  | lastRegistered => exact Nat.le_antisymm h' h

/-- The tie-break takes `m` out of the matches. -/
structure Selects (t : TieBreak) (ms : List RouteMatch) (m : RouteMatch) : Prop where
  mem : m ∈ ms
  pos : 0 < m.score
  score_le : ∀ other ∈ ms, other.score ≤ m.score
  leads : ∀ other ∈ ms, other.score = m.score → t.Leads m.id other.id

/-- What is taken out of the matches, if anything is. -/
def Decides (t : TieBreak) (ms : List RouteMatch) : Option RouteMatch → Prop
  | none => ∀ m ∈ ms, m.score = 0
  | some m => t.Selects ms m

theorem Selects.unique {t : TieBreak} {ms : List RouteMatch} {m m' : RouteMatch}
    (h : t.Selects ms m) (h' : t.Selects ms m') : m = m' := by
  have hscore : m.score = m'.score :=
    Nat.le_antisymm (h'.score_le m h.mem) (h.score_le m' h'.mem)
  have hid : m.id = m'.id :=
    leads_antisymm (h.leads m' h'.mem hscore.symm) (h'.leads m h.mem hscore)
  cases m
  cases m'
  simp_all

theorem Decides.eq_none_iff {t : TieBreak} {ms : List RouteMatch} {best : Option RouteMatch}
    (h : t.Decides ms best) : best = none ↔ ∀ m ∈ ms, m.score = 0 := by
  cases best with
  | none => exact ⟨fun _ => h, fun _ => rfl⟩
  | some m =>
    have hpos := Selects.pos h
    simp only [reduceCtorEq, false_iff]
    exact fun hzero => absurd (hzero m (Selects.mem h)) (by omega)

theorem Decides.eq_some_iff {t : TieBreak} {ms : List RouteMatch} {best : Option RouteMatch}
    (h : t.Decides ms best) (m : RouteMatch) : best = some m ↔ t.Selects ms m := by
  constructor
  · rintro rfl
    exact h
  · intro hm
    cases best with
    | none =>
      have hzero : m.score = 0 := h m hm.mem
      exact absurd hm.pos (by omega)
    | some found => rw [Selects.unique h hm]

/-- A score that is not zero, is reached by some match and exceeded by none is that of the match
taken out. -/
theorem Decides.exists_of_top {t : TieBreak} {ms : List RouteMatch} {best : Option RouteMatch}
    {x : RouteMatch} (h : t.Decides ms best) (hpos : 0 < x.score) (hx : x ∈ ms)
    (hle : ∀ other ∈ ms, other.score ≤ x.score) :
    ∃ m, best = some m ∧ t.Selects ms m ∧ m.score = x.score := by
  cases best with
  | none =>
    have hzero : x.score = 0 := h x hx
    omega
  | some m =>
    have hm : t.Selects ms m := h
    exact ⟨m, rfl, hm, Nat.le_antisymm (hle m hm.mem) (hm.score_le x hx)⟩

/-! ### One pass over the matches -/

theorem Selects.append {t : TieBreak} {ms : List RouteMatch} {m x : RouteMatch}
    (h : t.Selects ms m) (hle : x.score ≤ m.score)
    (hleads : x.score = m.score → t.Leads m.id x.id) : t.Selects (ms ++ [x]) m := by
  refine ⟨List.mem_append_left _ h.mem, h.pos, ?_, ?_⟩
  · intro other ho
    rcases List.mem_append.1 ho with ho | ho
    · exact h.score_le other ho
    · obtain rfl := List.mem_singleton.1 ho
      exact hle
  · intro other ho heq
    rcases List.mem_append.1 ho with ho | ho
    · exact h.leads other ho heq
    · obtain rfl := List.mem_singleton.1 ho
      exact hleads heq

theorem selects_last {t : TieBreak} {ms : List RouteMatch} {x : RouteMatch} (hpos : 0 < x.score)
    (h : ∀ m ∈ ms, m.score ≤ x.score ∧ (m.score = x.score → t.Leads x.id m.id)) :
    t.Selects (ms ++ [x]) x := by
  refine ⟨by simp, hpos, ?_, ?_⟩
  · intro other ho
    rcases List.mem_append.1 ho with ho | ho
    · exact (h other ho).1
    · obtain rfl := List.mem_singleton.1 ho
      exact Nat.le_refl _
  · intro other ho heq
    rcases List.mem_append.1 ho with ho | ho
    · exact (h other ho).2 heq
    · obtain rfl := List.mem_singleton.1 ho
      exact t.leads_refl _

/-- One step keeps the better of the match so far and a later one. -/
theorem decides_better {t : TieBreak} {ms : List RouteMatch} {best : Option RouteMatch}
    {x : RouteMatch} (h : t.Decides ms best) (hlt : ∀ m ∈ ms, m.id < x.id) :
    t.Decides (ms ++ [x]) (t.better best x) := by
  by_cases hx : x.score = 0
  · simp only [better, hx, if_true]
    cases best with
    | none => simpa [Decides, or_imp, forall_and, hx] using h
    | some m =>
      have hpos := Selects.pos h
      exact Selects.append h (by omega) (by omega)
  · simp only [better, hx, if_false]
    cases best with
    | none => exact selects_last (by omega) fun m hm => by simp only [h m hm]; omega
    | some m =>
      have hm : m.id < x.id := hlt m (Selects.mem h)
      cases t with
      | firstRegistered =>
        -- only a higher score takes the place of an earlier match
        by_cases hlt' : m.score < x.score
        · simp only [hlt', if_true]
          refine selects_last (by omega) fun other ho => ?_
          have := Selects.score_le h other ho
          omega
        · simp only [hlt', if_false]
          exact Selects.append h (by omega) fun _ => Nat.le_of_lt hm
      | lastRegistered =>
        by_cases hle : m.score ≤ x.score
        · simp only [hle, if_true]
          refine selects_last (by omega) fun other ho => ⟨?_, fun _ => ?_⟩
          · exact Nat.le_trans (Selects.score_le h other ho) hle
          · exact Nat.le_of_lt (hlt other ho)
        · simp only [hle, if_false]
          exact Selects.append h (by omega) (by omega)

/-- **The pass selects.** Over matches in ascending order of their numbers, the better of each and
those before it is in the end the one that the tie-break selects. -/
theorem decides_foldl (t : TieBreak) {ms : List RouteMatch}
    (h : ms.Pairwise fun m other => m.id < other.id) : t.Decides ms (ms.foldl t.better none) := by
  induction ms using List.reverseRecOn with
  | nil => simp [Decides]
  | append_singleton ms x ih =>
    obtain ⟨hms, -, hlt⟩ := List.pairwise_append.1 h
    rw [List.foldl_append]
    exact decides_better (ih hms) fun m hm => hlt m hm x (by simp)

end TieBreak

/-! ### Looking up a request -/

namespace Snapshot

variable {s : Snapshot ρ ω} {entries : List (String × String)}

theorem Lists.pairwise_id (h : s.Lists entries) :
    s.routes.Pairwise fun route other => route.id < other.id := by
  rw [List.pairwise_iff_getElem]
  intro i j hi hj hij
  rw [h.id_eq (List.getElem?_eq_getElem hi), h.id_eq (List.getElem?_eq_getElem hj)]
  exact hij

theorem Lists.getElem?_scoreAll (h : s.Lists entries) (path : String) (i : Nat) :
    (s.scoreAll path)[i]? = s.routes[i]?.map fun route => RouteMatch.mk i
      (if (Path.segments path).length ≤ s.options.maxSegments
        then route.pattern.score s.options.scoring path else 0) := by
  by_cases hlen : (Path.segments path).length ≤ s.options.maxSegments
  · simp only [scoreAll, tooLong, Nat.not_lt.2 hlen, decide_false, Bool.false_eq_true, if_false,
      List.getElem?_map, hlen, if_true]
    cases hroute : s.routes[i]? with
    | none => rfl
    | some route => simp [matchOf, Pattern.score, h.id_eq hroute]
  · simp only [scoreAll, tooLong, Nat.lt_of_not_le hlen, decide_true, if_true,
      List.getElem?_map, hlen, if_false]
    cases hroute : s.routes[i]? with
    | none => rfl
    | some route => simp [h.id_eq hroute]

/-- What is found for a request is decided by the scores of all routes. -/
theorem Lists.decides_find (h : s.Lists entries) (path : String) :
    s.options.tieBreak.Decides (s.scoreAll path) (s.find path) := by
  unfold scoreAll find findSegments
  by_cases hlen : s.tooLong (Path.segments path) = true
  · simp [hlen, TieBreak.Decides]
  · simp only [hlen]
    rw [← List.foldl_map]
    exact TieBreak.decides_foldl _ (List.pairwise_map.2 h.pairwise_id)

theorem Lists.mem_scoreAll_iff (h : s.Lists entries) {path : String} {m : RouteMatch} :
    m ∈ s.scoreAll path ↔ ∃ route, s.routes[m.id]? = some route ∧
      m.score = if (Path.segments path).length ≤ s.options.maxSegments
        then route.pattern.score s.options.scoring path else 0 := by
  constructor
  · intro hm
    obtain ⟨i, hi⟩ := List.getElem?_of_mem hm
    rw [h.getElem?_scoreAll, Option.map_eq_some_iff] at hi
    obtain ⟨route, hroute, rfl⟩ := hi
    exact ⟨route, hroute, rfl⟩
  · rintro ⟨route, hroute, hscore⟩
    refine List.mem_of_getElem? (i := m.id) ?_
    rw [h.getElem?_scoreAll, hroute, Option.map_some, ← hscore]

/-- What is found is a route with its score, which is not zero. -/
theorem Lists.route_of_find (h : s.Lists entries) {path : String} {m : RouteMatch}
    (hm : s.find path = some m) : ∃ route, s.routes[m.id]? = some route ∧
      route.pattern.score s.options.scoring path = m.score ∧ 0 < m.score := by
  have hsel := ((h.decides_find path).eq_some_iff m).1 hm
  obtain ⟨route, hroute, hscore⟩ := h.mem_scoreAll_iff.1 hsel.mem
  have hpos := hsel.pos
  split at hscore
  · exact ⟨route, hroute, hscore.symm, hpos⟩
  · omega

theorem dispatch_of_find_none {path : String} (h : s.find path = none) (receiver : ρ) :
    s.dispatch receiver path = .error (.routeNotFound path) := by
  simp [dispatch, h]

theorem dispatch_of_find_some {path : String} {m : RouteMatch} {route : Route}
    (h : s.find path = some m) (hroute : s.routes[m.id]? = some route) (receiver : ρ) :
    s.dispatch receiver path = (s.invoke route receiver path).mapError .invocation := by
  simp [dispatch, h, route?, hroute]

end Snapshot

/-- **Selection.** After any history, the scores of a request are those of the routes in order, the
route found is the one that the tie-break selects out of them, and its operation is called. -/
theorem Router.find_iff_selects {operations : OperationTable ρ ω} {options : Option RouterOptions}
    {r : Router ρ ω} (hr : ofOperations operations options = .ok r) (history : List Command)
    (receiver : ρ) (path : String) :
    let s := (r.run history).close.1
    (∀ i, (s.scoreAll path)[i]? = s.routes[i]?.map fun route => RouteMatch.mk i
      (if (Path.segments path).length ≤ s.options.maxSegments
        then route.pattern.score s.options.scoring path else 0)) ∧
    (s.find path = none ↔ ∀ m ∈ s.scoreAll path, m.score = 0) ∧
    (∀ m, s.find path = some m ↔ s.options.tieBreak.Selects (s.scoreAll path) m) ∧
    (s.dispatch receiver path = .error (.routeNotFound path) ↔ s.find path = none) ∧
    ∀ m, s.find path = some m → ∃ route, s.routes[m.id]? = some route ∧
      s.dispatch receiver path = (s.invoke route receiver path).mapError .invocation := by
  intro s
  obtain ⟨-, -, hlists⟩ : _ ∧ _ ∧ s.Lists _ := run_lists hr history
  have hdecides := hlists.decides_find path
  have hcalled : ∀ m, s.find path = some m → ∃ route, s.routes[m.id]? = some route ∧
      s.dispatch receiver path = (s.invoke route receiver path).mapError .invocation := by
    intro m hm
    obtain ⟨route, hroute, -, -⟩ := hlists.route_of_find hm
    exact ⟨route, hroute, Snapshot.dispatch_of_find_some hm hroute receiver⟩
  refine ⟨hlists.getElem?_scoreAll path, hdecides.eq_none_iff, hdecides.eq_some_iff, ?_, hcalled⟩
  constructor
  · intro hnone
    cases hfind : s.find path with
    | none => rfl
    | some m =>
      obtain ⟨route, -, hcall⟩ := hcalled m hfind
      rw [hcall, Outcome.mapError_eq_error] at hnone
      obtain ⟨e, -, he⟩ := hnone
      cases he
  · exact fun hfind => Snapshot.dispatch_of_find_none hfind receiver

/-- Two routes have the highest score for `/a`, and the first of them is called. -/
theorem Router.find_iff_selects_sample :
    let s := ((Sample.opened .lenient).run Sample.history).close.1
    s.scoreAll "/a" = [⟨0, 4⟩, ⟨1, 4⟩] ∧ s.find "/a" = some ⟨0, 4⟩ ∧
      s.options.tieBreak.Selects (s.scoreAll "/a") ⟨0, 4⟩ ∧
      ∃ route, s.routes[0]? = some route ∧
        s.dispatch () "/a" = (s.invoke route () "/a").mapError .invocation := by
  intro s
  obtain ⟨-, -, hselects, -, hcalled⟩ :=
    Router.find_iff_selects (Sample.ofOperations_opened .lenient) Sample.history () "/a"
  have hfind : s.find "/a" = some ⟨0, 4⟩ := by decide
  exact ⟨by decide, hfind, (hselects _).1 hfind, hcalled _ hfind⟩

end TypedRouting
