import TypedRouting.Proofs.Extraction

/-!
# Calls of typed handlers

A typed handler is called with any queue of values: some may have been taken before, and arrays may
hold items that are not of their element type. The call counts the values that are left, takes them
one by one at the types of the signature, and reports the first that does not fit.

* `TypedCallEnds`: how a call can end, with what holds of its values.
* `ends_call_typed`: a call ends in one of these ways.
* `call_typed_iff`: each way is the result just where its conditions hold.
-/

namespace TypedRouting

/-! ### Queues of values -/

namespace Arguments

variable {signature : List ParameterType} {a : Arguments} {i : Nat}
  {misfit : ParameterType × Value}

/-- The value in place `i` of the queue does not fit the type there. -/
def MisfitAt (a : Arguments) (signature : List ParameterType) (i : Nat)
    (misfit : ParameterType × Value) : Prop :=
  signature[i]? = some misfit.1 ∧ a.remaining[i]? = some misfit.2 ∧ ¬misfit.2.Fits misfit.1

theorem refusesAt_iff_misfitAt (a : Arguments) (signature : List ParameterType) (i : Nat)
    (e : InvocationError) :
    a.RefusesAt signature i e ↔ ∃ misfit, a.MisfitAt signature i misfit ∧
      e = .argumentType (a.taken + i) misfit.1 misfit.2.type := by
  unfold RefusesAt MisfitAt
  simp only [Value.as?_eq_none_iff]
  constructor
  · rintro ⟨T, v, hT, hv, hmisfit, rfl⟩
    exact ⟨(T, v), ⟨hT, hv, hmisfit⟩, rfl⟩
  · rintro ⟨⟨T, v⟩, ⟨hT, hv, hmisfit⟩, rfl⟩
    exact ⟨T, v, hT, hv, hmisfit, rfl⟩

/-- The first value that does not fit decides the error. -/
theorem inputs_of_misfit (hlength : a.length = signature.length)
    (h : Leftmost (a.MisfitAt signature) i misfit) :
    a.inputs signature = .error (.argumentType (a.taken + i) misfit.1 misfit.2.type) := by
  rw [inputs_eq_error_iff hlength]
  refine ⟨i, ?_⟩
  rw [Leftmost.map_iff (a.refusesAt_iff_misfitAt signature)]
  exact ⟨misfit, h, rfl⟩

/-- Where every value fits, the values are those of inputs. -/
theorem exists_toValues_of_fits (hlength : a.length = signature.length)
    (h : ∀ i misfit, ¬a.MisfitAt signature i misfit) :
    ∃ inputs : Inputs signature, inputs.toValues signature = a.remaining := by
  have hfits : ∀ (i : Nat) (hi : i < a.remaining.length) (hi' : i < signature.length),
      a.remaining[i].Fits signature[i] := by
    intro i hi hi'
    by_contra hnot
    apply h i (signature[i], a.remaining[i])
    exact ⟨List.getElem?_eq_getElem hi', List.getElem?_eq_getElem hi, hnot⟩
  apply Inputs.exists_toValues
  · apply List.ext_getElem
    · rw [List.length_map]
      exact hlength
    · intro i hi hi'
      rw [List.length_map] at hi
      rw [List.getElem_map]
      exact (hfits i hi hi').1
  · intro v hv
    obtain ⟨i, hi, rfl⟩ := List.getElem_of_mem hv
    have hi' : i < signature.length := by
      rw [← hlength]
      exact hi
    exact (hfits i hi hi').2

end Arguments

/-! ### Calls -/

variable {ρ ω : Type}

section Ends

variable (name : String) (signature : List ParameterType)
  (run : ρ → Inputs signature → Except Failure ω) (receiver : ρ) (a : Arguments)

/-- How the call of a typed handler ends. -/
inductive TypedCallEnds : Except InvocationError ω → Prop
  | arity (hlength : a.length ≠ signature.length) :
      TypedCallEnds (.error (.arityMismatch name signature.length a.length))
  | argument {i T v} (hlength : a.length = signature.length)
      (hfirst : Leftmost (a.MisfitAt signature) i (T, v)) :
      TypedCallEnds (.error (.argumentType (a.taken + i) T v.type))
  | handled {inputs : Inputs signature} (hinputs : inputs.toValues signature = a.remaining) :
      TypedCallEnds ((run receiver inputs).mapError (.failed name))

theorem ends_call_typed :
    TypedCallEnds name signature run receiver a
      (Operation.call ⟨name, signature, .typed run⟩ receiver a) := by
  by_cases hlength : a.length = signature.length
  · by_cases hmisfit : ∃ i misfit, a.MisfitAt signature i misfit
    · obtain ⟨i, misfit, hi⟩ := hmisfit
      obtain ⟨j, ⟨T, v⟩, hfirst⟩ := Leftmost.exists_of_holds hi
      have hinputs := Arguments.inputs_of_misfit hlength hfirst
      rw [Operation.call_of_inputs_error rfl hlength hinputs]
      exact .argument hlength hfirst
    · obtain ⟨inputs, hinputs⟩ := Arguments.exists_toValues_of_fits hlength
        fun i misfit h => hmisfit ⟨i, misfit, h⟩
      rw [Operation.call_of_inputs rfl hinputs]
      exact .handled hinputs
  · rw [Operation.call_of_count_ne hlength]
    exact .arity hlength

end Ends

/-- **Calls of typed handlers.** A call with another number of values than the signature has
parameters reports the number. Otherwise the first value that does not fit is reported, by its place
among all values of the queue; and where every value fits, the handler is given just these values in
order. No call comes to an end in another way, so that an argument is never missing. -/
theorem call_typed_iff (name : String) (signature : List ParameterType)
    (run : ρ → Inputs signature → Except Failure ω) (receiver : ρ) (a : Arguments) :
    (∀ result, Operation.call ⟨name, signature, .typed run⟩ receiver a = result ↔
      TypedCallEnds name signature run receiver a result) ∧
    ∀ position expected, Operation.call ⟨name, signature, .typed run⟩ receiver a ≠
      .error (.missingArgument position expected) := by
  constructor
  · intro result
    constructor
    · rintro rfl
      exact ends_call_typed name signature run receiver a
    · rintro (hlength | ⟨hlength, hfirst⟩ | hinputs)
      · exact Operation.call_of_count_ne hlength
      · exact Operation.call_of_inputs_error rfl hlength
          (Arguments.inputs_of_misfit hlength hfirst)
      · exact Operation.call_of_inputs rfl hinputs
  · intro position expected h
    have hends := ends_call_typed name signature run receiver a
    rw [h] at hends
    generalize hresult : (Except.error _ : Except InvocationError ω) = result at hends
    cases hends with
    | arity _ => cases hresult
    | argument _ _ => cases hresult
    | @handled inputs _ => cases hrun : run receiver inputs <;> simp [hrun] at hresult

/-- One value was taken before, and the array claims to hold whole numbers. -/
example :
    let wide : Operation Unit Int :=
      ⟨"wide", [.scalar .boolean, .array (.whole .long)], .typed fun _ _ => .ok 0⟩
    let values : List Value :=
      [.scalar .boolean true, .array (.whole .long) [.scalar .string "1"]]
    wide.call () ⟨values, 1⟩ =
      .error (.argumentType 2 (.array (.whole .long)) (.array (.whole .long))) := by
  rfl

end TypedRouting
