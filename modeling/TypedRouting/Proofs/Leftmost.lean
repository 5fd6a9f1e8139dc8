/-!
# The first of several places

Some places of a list have a property, each with a detail to it. `Leftmost` picks the first of them,
and for a list with a head it is the head or the first place of the rest.
-/

namespace TypedRouting

variable {α : Type} {P : Nat → α → Prop} {i : Nat} {a b : α}

/-- The place has the property, with this detail, and none before it has. -/
structure Leftmost (P : Nat → α → Prop) (i : Nat) (a : α) : Prop where
  holds : P i a
  le : ∀ j b, P j b → i ≤ j

namespace Leftmost

theorem iff_of_zero (h : P 0 a) (hunique : ∀ b, P 0 b → b = a) :
    Leftmost P i b ↔ i = 0 ∧ b = a := by
  constructor
  · rintro ⟨hb, hle⟩
    obtain rfl : i = 0 := Nat.le_zero.1 (hle 0 a h)
    exact ⟨rfl, hunique b hb⟩
  · rintro ⟨rfl, rfl⟩
    exact ⟨h, fun _ _ _ => Nat.zero_le _⟩

theorem iff_of_not_zero (h : ∀ b, ¬P 0 b) :
    Leftmost P i a ↔ ∃ j, i = j + 1 ∧ Leftmost (fun j => P (j + 1)) j a := by
  constructor
  · rintro ⟨ha, hle⟩
    cases i with
    | zero => exact absurd ha (h a)
    | succ j =>
      refine ⟨j, rfl, ha, fun k b hb => ?_⟩
      have := hle (k + 1) b hb
      omega
  · rintro ⟨j, rfl, ha, hle⟩
    refine ⟨ha, fun k b hb => ?_⟩
    cases k with
    | zero => exact absurd hb (h b)
    | succ k =>
      have := hle k b hb
      omega

/-- The detail of the first place is that of the head, or of the rest where the head has none. -/
theorem exists_iff_head (hunique : ∀ b c, P 0 b → P 0 c → c = b) :
    (∃ i, Leftmost P i a) ↔
      P 0 a ∨ (∀ b, ¬P 0 b) ∧ ∃ i, Leftmost (fun i => P (i + 1)) i a := by
  by_cases hhead : ∃ b, P 0 b
  · obtain ⟨b, hb⟩ := hhead
    simp only [iff_of_zero hb fun c => hunique b c hb, exists_eq_left]
    constructor
    · rintro rfl
      exact .inl hb
    · rintro (ha | ⟨hnone, -⟩)
      · exact hunique b a hb ha
      · exact absurd hb (hnone b)
  · have hnone : ∀ b, ¬P 0 b := fun b hb => hhead ⟨b, hb⟩
    simp only [iff_of_not_zero hnone]
    constructor
    · rintro ⟨_, j, rfl, hj⟩
      exact .inr ⟨hnone, j, hj⟩
    · rintro (ha | ⟨-, j, hj⟩)
      · exact absurd ha (hnone a)
      · exact ⟨j + 1, j, rfl, hj⟩

/-- The first place stays the first where its detail is written in another way. -/
theorem map_iff {β : Type} {Q : Nat → β → Prop} {f : Nat → α → β} {c : β}
    (h : ∀ i c, Q i c ↔ ∃ a, P i a ∧ c = f i a) :
    Leftmost Q i c ↔ ∃ a, Leftmost P i a ∧ c = f i a := by
  constructor
  · rintro ⟨hc, hle⟩
    obtain ⟨a, ha, rfl⟩ := (h i c).1 hc
    exact ⟨a, ⟨ha, fun j b hb => hle j _ ((h j _).2 ⟨b, hb, rfl⟩)⟩, rfl⟩
  · rintro ⟨a, ⟨ha, hle⟩, rfl⟩
    refine ⟨(h i _).2 ⟨a, ha, rfl⟩, fun j c hc => ?_⟩
    obtain ⟨b, hb, -⟩ := (h j c).1 hc
    exact hle j b hb

/-- Where some place has the property, one is the first. -/
theorem exists_of_holds (h : P i a) : ∃ j b, Leftmost P j b := by
  induction i using Nat.strongRecOn generalizing a with
  | ind i ih =>
    by_cases hbefore : ∃ j b, j < i ∧ P j b
    · obtain ⟨j, b, hlt, hb⟩ := hbefore
      exact ih j hlt hb
    · refine ⟨i, a, h, fun j b hb => ?_⟩
      exact Nat.not_lt.1 fun hlt => hbefore ⟨j, b, hlt, hb⟩

end Leftmost
end TypedRouting
