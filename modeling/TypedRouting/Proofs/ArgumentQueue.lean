import TypedRouting.Proofs.Extraction

/-!
# Values come out of a queue as they went in

A `Move` puts a value into a queue of arguments or takes the next one at a type. What a move removes
is read off the queues before and after it, and `removed` collects it over any number of moves.

* `Arguments.removed_append`: the removed values and the remaining ones are those of the start and
  those that were put in, in order.
* `Arguments.taken_after`: the count of a queue is the number of values removed from it.
* `Draws`: how a request for the next value can end.
* `Arguments.next_after`: after any moves, the next value is drawn in one of these ways.
-/

namespace TypedRouting
namespace Arguments

/-! ### Moves -/

/-- What can be done with a queue. -/
inductive Move
  | push (v : Value)
  | next (T : ParameterType)

/-- The values that a move puts in. -/
def Move.pushed : Move → List Value
  | .push v => [v]
  | .next _ => []

/-- The queue after a move. -/
def step (a : Arguments) : Move → Arguments
  | .push v => a.push v
  | .next T => (a.next T).2

/-- The queue after a number of moves. -/
def after (a : Arguments) (moves : List Move) : Arguments := moves.foldl step a

/-- The values that a move removes: as many from the front as the queue gets shorter by. -/
def removedBy (a : Arguments) (move : Move) : List Value :=
  a.remaining.take (a.length - (a.step move).length)

/-- The values that a number of moves remove, in order. -/
def removed (a : Arguments) : List Move → List Value
  | [] => []
  | move :: moves => a.removedBy move ++ (a.step move).removed moves

section Moves

variable {a : Arguments} {v : Value} {rest : List Value} {T : ParameterType}

@[simp]
theorem after_nil (a : Arguments) : a.after [] = a := rfl

@[simp]
theorem after_cons (a : Arguments) (move : Move) (moves : List Move) :
    a.after (move :: moves) = (a.step move).after moves := rfl

theorem next_of_empty (h : a.remaining = []) :
    a.next T = (.error (.missingArgument a.taken T), a) := by
  unfold next
  rw [h]

/-- A value in front is used up, whatever is made of it. -/
theorem queue_next (h : a.remaining = v :: rest) : (a.next T).2 = ⟨rest, a.taken + 1⟩ := by
  unfold next
  rw [h]

theorem result_next (h : a.remaining = v :: rest) :
    (a.next T).1 = match v.as? T with
      | some x => .ok x
      | none => .error (.argumentType a.taken T v.type) := by
  obtain ⟨remaining, taken⟩ := a
  obtain rfl : remaining = v :: rest := h
  rfl

/-- What a move removes and what it leaves are what was there and what it puts in. The count goes up
by the number of values removed. -/
theorem removedBy_append (a : Arguments) (move : Move) :
    a.removedBy move ++ (a.step move).remaining = a.remaining ++ move.pushed ∧
      (a.step move).taken = a.taken + (a.removedBy move).length := by
  unfold removedBy
  cases move with
  | push v =>
    have hlonger : a.length - (a.step (.push v)).length = 0 := by
      show a.remaining.length - (a.remaining ++ [v]).length = 0
      rw [List.length_append]
      omega
    rw [hlonger, List.take_zero]
    exact ⟨rfl, rfl⟩
  | next T =>
    cases h : a.remaining with
    | nil =>
      have hkept : a.step (.next T) = a := by rw [step, next_of_empty h]
      rw [hkept, h, Nat.sub_self]
      exact ⟨rfl, rfl⟩
    | cons v rest =>
      have hnext : a.step (.next T) = ⟨rest, a.taken + 1⟩ := queue_next h
      have hone : a.length - (a.step (.next T)).length = 1 := by
        rw [hnext]
        show a.remaining.length - rest.length = 1
        rw [h, List.length_cons]
        omega
      rw [hone, hnext]
      exact ⟨(List.append_nil _).symm, rfl⟩

/-! ### Runs -/

/-- Nothing is lost, added or moved. -/
theorem removed_append (a : Arguments) (moves : List Move) :
    a.removed moves ++ (a.after moves).remaining = a.remaining ++ moves.flatMap Move.pushed := by
  induction moves generalizing a with
  | nil => exact (List.append_nil _).symm
  | cons move moves ih =>
    calc a.removed (move :: moves) ++ (a.after (move :: moves)).remaining
      _ = a.removedBy move ++
            ((a.step move).removed moves ++ ((a.step move).after moves).remaining) :=
        List.append_assoc _ _ _
      _ = (a.removedBy move ++ (a.step move).remaining) ++ moves.flatMap Move.pushed := by
        rw [ih, List.append_assoc]
      _ = a.remaining ++ (move :: moves).flatMap Move.pushed := by
        rw [(a.removedBy_append move).1, List.append_assoc, List.flatMap_cons]

theorem taken_after (a : Arguments) (moves : List Move) :
    (a.after moves).taken = a.taken + (a.removed moves).length := by
  induction moves generalizing a with
  | nil => rfl
  | cons move moves ih =>
    rw [after_cons, ih, (a.removedBy_append move).2, removed, List.length_append, Nat.add_assoc]

end Moves

end Arguments

/-! ### The next value -/

/-- How a request for the next value at a type ends, as an answer of the queue `a`, which is `b`
afterwards. `position` is the place of the value among all that were there or were put in. -/
inductive Draws (position : Nat) (T : ParameterType) (a b : Arguments) :
    Except InvocationError T.Carrier → Prop
  | given {v} (x : T.Carrier) (hfront : a.remaining = v :: b.remaining) (hfits : v.Fits T)
      (hx : v = Value.ofCarrier T x) : Draws position T a b (.ok x)
  | misfit {v} (hfront : a.remaining = v :: b.remaining) (hmisfit : ¬v.Fits T) :
      Draws position T a b (.error (.argumentType position T v.type))
  | missing (hempty : a.remaining = []) (hkept : b = a) :
      Draws position T a b (.error (.missingArgument position T))

namespace Arguments

theorem draws_next (a : Arguments) (T : ParameterType) :
    Draws a.taken T a (a.next T).2 (a.next T).1 := by
  cases h : a.remaining with
  | nil =>
    rw [next_of_empty h]
    exact .missing h rfl
  | cons v rest =>
    have hfront : a.remaining = v :: (a.next T).2.remaining := by rw [queue_next h, h]
    rw [result_next h]
    cases hv : v.as? T with
    | none => exact .misfit hfront (Value.as?_eq_none_iff.1 hv)
    | some x => exact .given x hfront (Value.fits_iff.2 ⟨x, hv⟩) (Value.as?_eq_some_iff.1 hv)

/-- **First in, first out.** Whatever was put into a queue and taken from it, the values removed and
then the remaining ones are those that it had at first and then those that were put in. Its length
is the number of these less the number removed. The next value is the one in front, which is removed
also where it does not fit, and an empty queue stays as it is. An error gives the number of values
removed before. -/
theorem next_after (initial : List Value) (moves : List Move) :
    let a := (ofList initial).after moves
    let removed := (ofList initial).removed moves
    let pushed := moves.flatMap Move.pushed
    removed ++ a.remaining = initial ++ pushed ∧
    (a.length : Int) = initial.length + pushed.length - removed.length ∧
    ∀ T, Draws removed.length T a (a.next T).2 (a.next T).1 := by
  intro a removed pushed
  have hvalues : removed ++ a.remaining = initial ++ pushed := removed_append _ moves
  refine ⟨hvalues, ?_, fun T => ?_⟩
  · have hcount := congrArg List.length hvalues
    rw [List.length_append, List.length_append] at hcount
    show (a.remaining.length : Int) = _
    omega
  · have htaken : a.taken = removed.length := by
      rw [taken_after]
      exact Nat.zero_add _
    rw [← htaken]
    exact a.draws_next T

/-- A value that does not fit counts as taken, like the one that is put in after it. -/
example :
    let a := (ofList [.scalar .boolean true]).after
      [.next (.scalar .string), .push (.scalar .string "x"), .next (.scalar .string)]
    (a.next (.scalar .string)).1 = .error (.missingArgument 2 (.scalar .string)) := by
  rfl

end Arguments
end TypedRouting
