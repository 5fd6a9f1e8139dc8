import TypedRouting.Proofs.Registration

/-!
# Batches of entries

`Router.AddsInTurn` is what comes of adding entries one by one until one of them is refused.

* `Router.addBulk_cons_of_error`, `Router.addBulk_cons_of_ok`: a batch fails with its first entry, or
  goes on after it as a batch of the others.
* `Router.addBulk_iff_addsInTurn`: so a batch has the numbers, the routes or the error of its
  entries in turn; but one that is refused changes nothing.
-/

namespace TypedRouting

variable {ρ ω : Type}

namespace Router

/-- Added one by one, the entries get these numbers and lead to this router, or the first of them
that is refused gives this error. -/
inductive AddsInTurn :
    Router ρ ω → List (String × String) → Except RouterError (List Nat × Router ρ ω) → Prop
  | nil {r : Router ρ ω} : AddsInTurn r [] (.ok ([], r))
  | refused {r : Router ρ ω} {path name : String} {rest : List (String × String)} {e : RouterError}
      (hadd : r.add path name = .error e) : AddsInTurn r ((path, name) :: rest) (.error e)
  | added {r next : Router ρ ω} {path name : String} {rest : List (String × String)} {id : Nat}
      {result : Except RouterError (List Nat × Router ρ ω)}
      (hadd : r.add path name = .ok (id, next)) (hrest : AddsInTurn next rest result) :
      AddsInTurn r ((path, name) :: rest) (result.map fun (ids, last) => (id :: ids, last))

variable {r : Router ρ ω}

/-! ### Batches, entry by entry -/

theorem addBulk_nil (hopen : r.isClosed = false) : r.addBulk [] = .ok ([], r) := by
  obtain ⟨routes, operations, hstate⟩ := isClosed_eq_false_iff.1 hopen
  refine addBulk_eq_ok.2 ⟨routes, operations, [], hstate, rfl, rfl, ?_⟩
  rw [List.append_nil, ← hstate]
  rfl

theorem addBulk_cons_of_error (hopen : r.isClosed = false) {path name : String} {e : RouterError}
    (h : r.add path name = .error e) (rest : List (String × String)) :
    r.addBulk ((path, name) :: rest) = .error e := by
  obtain ⟨routes, operations, hstate⟩ := isClosed_eq_false_iff.1 hopen
  simp only [add, hstate, Outcome.map_eq_error] at h
  simp [addBulk, hstate, routesOf, h]

theorem addBulk_cons_of_ok {path name : String} {id : Nat} {next : Router ρ ω}
    (h : r.add path name = .ok (id, next)) (rest : List (String × String)) :
    r.addBulk ((path, name) :: rest) =
      (next.addBulk rest).map fun (ids, last) => (id :: ids, last) := by
  have hopen : r.isClosed = false := (isClosed_of_addBulk (addBulk_of_add h)).1
  obtain ⟨routes, operations, hstate⟩ := isClosed_eq_false_iff.1 hopen
  simp only [add, hstate, Outcome.map_eq_ok] at h
  obtain ⟨route, hroute, hpair⟩ := h
  cases hpair
  simp only [addBulk, hstate, routesOf, hroute, withState, List.length_append,
    List.length_singleton]
  cases routesOf r.options operations (routes.length + 1) rest with
  | error e => rfl
  | ok others => simp

theorem addsInTurn_addBulk (hopen : r.isClosed = false) (entries : List (String × String)) :
    r.AddsInTurn entries (r.addBulk entries) := by
  induction entries generalizing r with
  | nil =>
    rw [addBulk_nil hopen]
    exact .nil
  | cons entry rest ih =>
    obtain ⟨path, name⟩ := entry
    cases hadd : r.add path name with
    | error e =>
      rw [addBulk_cons_of_error hopen hadd]
      exact .refused hadd
    | ok result =>
      obtain ⟨id, next⟩ := result
      rw [addBulk_cons_of_ok hadd]
      exact .added hadd (ih (isClosed_of_addBulk (addBulk_of_add hadd)).2)

theorem AddsInTurn.addBulk_eq {entries : List (String × String)}
    {result : Except RouterError (List Nat × Router ρ ω)} (h : r.AddsInTurn entries result)
    (hopen : r.isClosed = false) : r.addBulk entries = result := by
  induction h with
  | nil => exact addBulk_nil hopen
  | refused hadd => exact addBulk_cons_of_error hopen hadd _
  | added hadd _ ih =>
    rw [addBulk_cons_of_ok hadd, ih (isClosed_of_addBulk (addBulk_of_add hadd)).2]

/-- **Batches.** An open router takes a batch as it takes its entries in turn, with the same numbers
and routes or the error of the first that is refused; and then it stays as it is. -/
theorem addBulk_iff_addsInTurn (hopen : r.isClosed = false) (entries : List (String × String)) :
    (∀ result, r.addBulk entries = result ↔ r.AddsInTurn entries result) ∧
      ∀ e, r.addBulk entries = .error e → r.step (.addBulk entries) = r := by
  refine ⟨fun result => ⟨?_, fun h => h.addBulk_eq hopen⟩, fun e he => ?_⟩
  · rintro rfl
    exact addsInTurn_addBulk hopen entries
  · simp [step, execute, he]

/-- The second entry is refused after the first would have been added. -/
theorem addBulk_iff_addsInTurn_sample :
    let r := (Sample.opened .strict).run [.add "/" "home"]
    let entries := [("/a", "home"), ("/b", "away"), ("/{Long}", "list")]
    r.isClosed = false ∧ r.AddsInTurn entries (.error (.unknownOperation "/b" "away")) ∧
      r.step (.addBulk entries) = r := by
  intro r entries
  have hopen : r.isClosed = false := rfl
  have herror : r.addBulk entries = .error (.unknownOperation "/b" "away") := rfl
  obtain ⟨hturn, hkept⟩ := addBulk_iff_addsInTurn hopen entries
  exact ⟨hopen, (hturn _).1 herror, hkept _ herror⟩

end Router
end TypedRouting
