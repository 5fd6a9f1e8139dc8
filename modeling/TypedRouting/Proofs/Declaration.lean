import TypedRouting.Proofs.Outcome
import TypedRouting.Routing.Snapshot

/-!
# What is read from a declared path

* `Pattern.ofSegments_cons_eq_ok`: what the first segment of a declared path makes.
* `Pattern.ofPath_eq_ok`: a declared path that is read has no more segments than the options
  allow, and its pattern declares exactly the expected parameters.
* `Route.ofPath_eq_ok`: a route is bound to the operation it is read for, with its signature.
* `Pattern.ofPath_eq_of_isLiteral`: a path without placeholders makes a pattern of its segments,
  folded as the options say, and no tail.
-/

namespace TypedRouting

variable {options : DeclarationOptions} {path : String}

namespace Pattern

/-- The first segment of a declared path is a literal, a placeholder for one value, or an array,
which nothing follows. -/
theorem ofSegments_cons_eq_ok {index : Nat} {text : String} {rest : List String} {p : Pattern} :
    ofSegments options path index (text :: rest) = .ok p ↔
      (Placeholder.ofText? text = none ∧ ∃ q, ofSegments options path (index + 1) rest = .ok q ∧
        cons (.literal (options.literal text)) q = p) ∨
      ∃ placeholder t, Placeholder.ofText? text = some placeholder ∧
        ScalarType.ofToken? placeholder.token = some t ∧
        ((placeholder.array = false ∧ ∃ q, ofSegments options path (index + 1) rest = .ok q ∧
            cons (.placeholder t ⟨text, placeholder.label⟩) q = p) ∨
          placeholder.array = true ∧ rest = [] ∧
            ⟨[], some ⟨t, text, placeholder.label⟩⟩ = p) := by
  rw [ofSegments, Declared.ofText]
  cases htext : Placeholder.ofText? text with
  | none => simp
  | some placeholder =>
    cases ht : ScalarType.ofToken? placeholder.token with
    | none => cases harray : placeholder.array <;> cases rest <;> simp [ht, harray]
    | some t =>
      cases harray : placeholder.array with
      | false => simp [ht, harray, Declared.ofPlaceholder]
      | true => cases rest <;> simp [ht, harray, Declared.ofPlaceholder]

theorem ofPath_eq_ok {expected : List ParameterType} {p : Pattern} :
    ofPath options path expected = .ok p ↔
      (Path.segments path).length ≤ options.maxSegments ∧
      ofSegments options path 0 (Path.segments path) = .ok p ∧ p.parameterTypes = expected := by
  constructor
  · intro h
    simp only [ofPath] at h
    split at h
    · cases h
    · next hlen =>
      split at h
      · cases h
      · next q hq =>
        split at h
        · next htypes =>
          cases h
          exact ⟨Nat.not_lt.1 hlen, hq, htypes⟩
        · cases h
  · rintro ⟨hlen, hp, rfl⟩
    simp [ofPath, hp, Nat.not_lt.2 hlen]

end Pattern

theorem Route.ofPath_eq_ok {ρ ω : Type} {id : Nat} {op : Operation ρ ω} {route : Route} :
    Route.ofPath options id path op = .ok route ↔
      ∃ p, Pattern.ofPath options path op.signature = .ok p ∧
        route = ⟨id, p, op.name, op.signature⟩ := by
  unfold Route.ofPath
  rw [Outcome.map_eq_ok]
  constructor
  · rintro ⟨p, hp, rfl⟩
    exact ⟨p, hp, by rw [(Pattern.ofPath_eq_ok.1 hp).2.2]⟩
  · rintro ⟨p, hp, rfl⟩
    exact ⟨p, hp, by rw [(Pattern.ofPath_eq_ok.1 hp).2.2]⟩

/-! ### Paths without placeholders -/

/-- No segment of the declared path is a placeholder. -/
def Path.IsLiteral (path : String) : Prop :=
  ∀ text ∈ Path.segments path, Placeholder.ofText? text = none

instance (path : String) : Decidable (Path.IsLiteral path) :=
  inferInstanceAs (Decidable (∀ text ∈ Path.segments path, Placeholder.ofText? text = none))

namespace Pattern

/-- The pattern of a row of literals. -/
def ofLiterals (options : DeclarationOptions) (texts : List String) : Pattern :=
  ⟨texts.map fun text => .literal (options.literal text), none⟩

theorem ofSegments_eq_of_literal {texts : List String} {index : Nat}
    (h : ∀ text ∈ texts, Placeholder.ofText? text = none) :
    ofSegments options path index texts = .ok (ofLiterals options texts) := by
  induction texts generalizing index with
  | nil => rfl
  | cons text rest ih =>
    have hrest : ofSegments options path (index + 1) rest = .ok (ofLiterals options rest) :=
      ih fun t ht => h t (List.mem_cons_of_mem _ ht)
    simp [ofSegments, Declared.ofText, h text (by simp), hrest, ofLiterals, cons]

theorem ofPath_eq_of_isLiteral {expected : List ParameterType} {p : Pattern}
    (hp : ofPath options path expected = .ok p) (h : Path.IsLiteral path) :
    p = ofLiterals options (Path.segments path) := by
  have hsegments := (ofPath_eq_ok.1 hp).2.1
  rw [ofSegments_eq_of_literal h] at hsegments
  exact (Except.ok.inj hsegments).symm

end Pattern
end TypedRouting
