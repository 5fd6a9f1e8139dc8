/-!
# Results and errors

When a result that was mapped is a given value, and when it is a given error. `Outcome.Rel` relates
results that are both values or both errors.
-/

namespace TypedRouting
namespace Outcome

variable {ε ε' α β : Type}

@[simp]
theorem map_ok (f : α → β) (a : α) : (Except.ok a : Except ε α).map f = .ok (f a) := rfl

@[simp]
theorem map_error (f : α → β) (e : ε) : (Except.error e : Except ε α).map f = .error e := rfl

@[simp]
theorem mapError_ok (f : ε → ε') (a : α) : (Except.ok a : Except ε α).mapError f = .ok a := rfl

@[simp]
theorem mapError_error (f : ε → ε') (e : ε) :
    (Except.error e : Except ε α).mapError f = .error (f e) := rfl

@[simp]
theorem map_eq_ok {x : Except ε α} {f : α → β} {b : β} :
    x.map f = .ok b ↔ ∃ a, x = .ok a ∧ f a = b := by
  cases x <;> simp

@[simp]
theorem map_eq_error {x : Except ε α} {f : α → β} {e : ε} :
    x.map f = .error e ↔ x = .error e := by
  cases x <;> simp

@[simp]
theorem mapError_eq_ok {x : Except ε α} {f : ε → ε'} {a : α} :
    x.mapError f = .ok a ↔ x = .ok a := by
  cases x <;> simp

@[simp]
theorem mapError_eq_error {x : Except ε α} {f : ε → ε'} {e : ε'} :
    x.mapError f = .error e ↔ ∃ d, x = .error d ∧ f d = e := by
  cases x <;> simp

@[simp]
theorem ok_bind (a : α) (f : α → Except ε β) : (Except.ok a >>= f) = f a := rfl

/-- Two values that are related, or two errors that are. -/
inductive Rel (E : ε → ε' → Prop) (R : α → β → Prop) : Except ε α → Except ε' β → Prop
  | error {e : ε} {e' : ε'} (h : E e e') : Rel E R (.error e) (.error e')
  | ok {a : α} {b : β} (h : R a b) : Rel E R (.ok a) (.ok b)

theorem Rel.map {α' β' : Type} {E : ε → ε' → Prop} {R : α → β → Prop} {R' : α' → β' → Prop}
    {x : Except ε α} {y : Except ε' β} {f : α → α'} {g : β → β'} (h : Rel E R x y)
    (hfg : ∀ a b, R a b → R' (f a) (g b)) : Rel E R' (x.map f) (y.map g) := by
  cases h with
  | error he => exact .error he
  | ok hab => exact .ok (hfg _ _ hab)

end Outcome
end TypedRouting
