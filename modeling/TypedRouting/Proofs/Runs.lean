/-!
# Runs at the start of a list

A reader takes the longest run of items that pass a test and leaves the rest. `Run.span_iff` says
when the two parts are given ones: they make up the list, the first passes the test, and the second
does not start with an item that passes it.
-/

namespace TypedRouting
namespace Run

variable {α : Type} {test : α → Bool} {run rest items : List α}

/-- The items do not go on with one that passes the test. -/
def Stops (test : α → Bool) (rest : List α) : Prop := ∀ a ∈ rest.head?, test a = false

@[simp]
theorem stops_nil : Stops test [] := by simp [Stops]

@[simp]
theorem stops_cons {a : α} : Stops test (a :: rest) ↔ test a = false := by simp [Stops]

theorem takeWhile_append (hrun : ∀ a ∈ run, test a = true) (hrest : Stops test rest) :
    (run ++ rest).takeWhile test = run := by
  rw [List.takeWhile_append_of_pos hrun]
  cases rest with
  | nil => simp
  | cons a rest => simp [stops_cons.1 hrest]

theorem dropWhile_append (hrun : ∀ a ∈ run, test a = true) (hrest : Stops test rest) :
    (run ++ rest).dropWhile test = rest := by
  rw [List.dropWhile_append_of_pos hrun]
  cases rest with
  | nil => rfl
  | cons a rest => simp [stops_cons.1 hrest]

theorem stops_dropWhile (test : α → Bool) (items : List α) : Stops test (items.dropWhile test) := by
  intro a ha
  have hhead := List.head?_dropWhile_not test items
  rw [Option.mem_def.1 ha] at hhead
  simpa using hhead

theorem span_iff :
    items.takeWhile test = run ∧ items.dropWhile test = rest ↔
      items = run ++ rest ∧ (∀ a ∈ run, test a = true) ∧ Stops test rest := by
  constructor
  · rintro ⟨rfl, rfl⟩
    refine ⟨List.takeWhile_append_dropWhile.symm, ?_, stops_dropWhile test items⟩
    exact List.all_eq_true.1 List.all_takeWhile
  · rintro ⟨rfl, hrun, hrest⟩
    exact ⟨takeWhile_append hrun hrest, dropWhile_append hrun hrest⟩

end Run
end TypedRouting
