import TypedRouting.Proofs.PatternLayout
import TypedRouting.Proofs.PlaceholderCase

/-!
# Normal paths read again

The normal path of a pattern is a declared path too. Literals go into it in lower case, and a
literal with the Kelvin sign, whose lower case is `k`, may come out as a placeholder.

* `Pattern.ofPath_normal_path_iff`: a pattern comes back from its own normal path just where no
  literal of it reads as a placeholder; otherwise the path is refused. Where case matters, and where
  the Kelvin sign is not in the declared path, the pattern always comes back.
* `Pattern.normal_path_refused`: not every pattern does.
-/

namespace TypedRouting

/-- No literal of the pattern reads as a placeholder. -/
def Pattern.IsStable (p : Pattern) : Prop :=
  ∀ text, Segment.literal text ∈ p.fixed → Placeholder.ofText? text = none

/-! ### Literal text -/

namespace DeclarationOptions

variable {options : DeclarationOptions} {text : String}

theorem literal_literal : options.literal (options.literal text) = options.literal text := by
  unfold literal
  split
  · rfl
  · exact Text.lowercase_lowercase text

/-- Literal text stays literal, where case matters and where the Kelvin sign is not in it. -/
theorem ofText?_literal_eq_none (h : Placeholder.ofText? text = none)
    (hcase : options.caseSensitive = true ∨ '\u212A' ∉ text.toList) :
    Placeholder.ofText? (options.literal text) = none := by
  unfold literal
  split
  · exact h
  · next hfold =>
    have hkelvin := hcase.resolve_left hfold
    exact Placeholder.ofText?_lowercase_eq_none h hkelvin

end DeclarationOptions

namespace Declared

variable {options : DeclarationOptions} {text : String} {texts : List String} {d : Declared}
  {ds : List Declared}

theorem Of.eq_literal_iff {folded : String} (h : Of options text d) :
    d = .segment (.literal folded) ↔
      Placeholder.ofText? text = none ∧ options.literal text = folded := by
  cases h with
  | literal htext => simp [htext]
  | @placeholder p t htext htype =>
    refine iff_of_false (fun heq => ?_) (by simp [htext])
    cases harray : p.array with
    | false =>
      rw [harray] at heq
      cases heq
    | true =>
      rw [harray] at heq
      cases heq

/-- The literals are the literal segments of the path, folded. -/
theorem literal_mem_iff (h : List.Forall₂ (Of options) texts ds) {folded : String} :
    .segment (.literal folded) ∈ ds ↔
      ∃ text ∈ texts, Placeholder.ofText? text = none ∧ options.literal text = folded := by
  induction h with
  | nil => simp
  | @cons text d texts ds hd hds ih =>
    rw [List.mem_cons, eq_comm, hd.eq_literal_iff, ih]
    simp

/-- The same part is made of a segment as the normal path has it, if that tells it apart still. -/
theorem Of.normal (h : Of options text d)
    (hstable : Placeholder.ofText? text = none →
      Placeholder.ofText? (options.literal text) = none) :
    Of options (options.normal text) d := by
  cases h with
  | literal htext =>
    have hagain : Of options (options.literal text) _ := .literal (hstable htext)
    rw [DeclarationOptions.literal_literal] at hagain
    rwa [DeclarationOptions.normal_of_literal htext]
  | placeholder htext htype =>
    rw [DeclarationOptions.normal_of_placeholder htext]
    exact .placeholder htext htype

end Declared

/-! ### Reading the normal path -/

/-- Where as many items pass the weaker test, no item passes that test alone. -/
theorem passes_of_countP_eq {α : Type} {test weaker : α → Bool} {items : List α}
    (hweaker : ∀ a, test a = true → weaker a = true)
    (hcount : items.countP test = items.countP weaker) {a : α} (ha : a ∈ items)
    (hpass : weaker a = true) : test a = true := by
  have hfilter : items.filter test = items.filter weaker := by
    refine (List.monotone_filter_right items hweaker).eq_of_length ?_
    rw [← List.countP_eq_length_filter, ← List.countP_eq_length_filter, hcount]
  have hmem : a ∈ items.filter weaker := List.mem_filter.2 ⟨ha, hpass⟩
  rw [← hfilter] at hmem
  exact (List.mem_filter.1 hmem).2

namespace Pattern

variable {options : DeclarationOptions} {path : String} {p q : Pattern}
  {expected : List ParameterType} {texts : List String}

theorem isStable_iff (h : List.Forall₂ (Declared.Of options) texts p.parts) :
    p.IsStable ↔ ∀ text ∈ texts, Placeholder.ofText? text = none →
      Placeholder.ofText? (options.literal text) = none := by
  have hmem : ∀ folded, Segment.literal folded ∈ p.fixed ↔
      ∃ text ∈ texts, Placeholder.ofText? text = none ∧ options.literal text = folded := by
    intro folded
    rw [← Declared.literal_mem_iff h]
    cases htail : p.tail <;> simp [parts, htail]
  constructor
  · intro hstable text htext hliteral
    exact hstable _ ((hmem _).2 ⟨text, htext, hliteral, rfl⟩)
  · intro hliterals folded hfolded
    obtain ⟨text, htext, hliteral, rfl⟩ := (hmem folded).1 hfolded
    exact hliterals text htext hliteral

theorem length_parameterTypes (h : List.Forall₂ (Declared.Of options) texts p.parts) :
    p.parameterTypes.length = texts.countP fun text => (Placeholder.ofText? text).isSome := by
  rw [← List.length_filterMap_eq_countP]
  exact (declares_of_parts h).length_eq.symm

theorem ofSegments_normal (h : List.Forall₂ (Declared.Of options) texts p.parts)
    (hstable : p.IsStable) :
    List.Forall₂ (Declared.Of options) (texts.map options.normal) p.parts := by
  rw [List.forall₂_map_left_iff]
  have hboth := (List.forall₂_and_left _ _).2 ⟨(isStable_iff h).1 hstable, h⟩
  exact hboth.imp fun text d hd => hd.2.normal hd.1

/-- A placeholder more has a parameter more, so with the same parameters no literal became one. -/
theorem isStable_of_normal (h : List.Forall₂ (Declared.Of options) texts p.parts)
    (hq : List.Forall₂ (Declared.Of options) (texts.map options.normal) q.parts)
    (htypes : q.parameterTypes = p.parameterTypes) : p.IsStable := by
  have hkept : ∀ text, (Placeholder.ofText? text).isSome = true →
      (Placeholder.ofText? (options.normal text)).isSome = true := by
    intro text htext
    obtain ⟨placeholder, hsome⟩ := Option.isSome_iff_exists.1 htext
    rw [DeclarationOptions.normal_of_placeholder hsome, hsome]
    rfl
  have hcount : texts.countP (fun text => (Placeholder.ofText? text).isSome) =
      texts.countP fun text => (Placeholder.ofText? (options.normal text)).isSome := by
    rw [← length_parameterTypes h, ← htypes, length_parameterTypes hq, List.countP_map]
    rfl
  rw [isStable_iff h]
  intro text htext hliteral
  rw [← DeclarationOptions.normal_of_literal hliteral, ← Option.not_isSome_iff_eq_none]
  intro hafter
  have hbefore := passes_of_countP_eq hkept hcount htext hafter
  rw [hliteral] at hbefore
  cases hbefore

/-- **Normal paths.** A pattern comes back from its normal path just where it is stable. Where it is
not, the path is refused, so it never makes another pattern. The Kelvin sign is the only character
that can make a pattern unstable, and only where case does not matter. -/
theorem ofPath_normal_path_iff (h : ofPath options path expected = .ok p) :
    (ofPath options p.path p.parameterTypes = .ok p ↔ p.IsStable) ∧
      (¬p.IsStable → ∃ e, ofPath options p.path p.parameterTypes = .error e) ∧
      (options.caseSensitive = true ∨ '\u212A' ∉ path.toList → p.IsStable) := by
  obtain ⟨hlimit, hread, -⟩ := ofPath_eq_ok.1 h
  have hparts := ofSegments_eq_ok_iff.1 hread
  have hnormal := segments_path_of_parts hparts
  have hstable : ∀ q, ofPath options p.path p.parameterTypes = .ok q → p.IsStable := by
    intro q hq
    obtain ⟨-, hagain, htypes⟩ := ofPath_eq_ok.1 hq
    rw [hnormal] at hagain
    exact isStable_of_normal hparts (ofSegments_eq_ok_iff.1 hagain) htypes
  refine ⟨⟨hstable p, fun hp => ofPath_eq_ok.2 ⟨?_, ?_, rfl⟩⟩, ?_, ?_⟩
  · rwa [hnormal, List.length_map]
  · rw [hnormal]
    exact ofSegments_eq_ok_iff.2 (ofSegments_normal hparts hp)
  · intro hunstable
    cases hq : ofPath options p.path p.parameterTypes with
    | error e => exact ⟨e, rfl⟩
    | ok q => exact absurd (hstable q hq) hunstable
  · intro hcase
    rw [isStable_iff hparts]
    intro text htext hliteral
    refine DeclarationOptions.ofText?_literal_eq_none hliteral (hcase.imp_right ?_)
    exact mt (Path.mem_toList_of_mem_segments htext)

end Pattern

namespace Sample

/-- The pattern of a path with the Kelvin sign in braces, where case does not matter. -/
def kelvin : Pattern := ⟨[.literal "{k}"], none⟩

theorem ofPath_kelvin : Pattern.ofPath {} "/\x7b\u212A\x7d" [] = .ok kelvin := by decide

end Sample

/-- The sign in braces is a literal, and what it is folded to is not. -/
theorem Pattern.ofPath_normal_path_iff_sample :
    ofPath {} "/\x7b\u212A\x7d" [] = .ok Sample.kelvin ∧ ¬Sample.kelvin.IsStable ∧
      ∃ e, ofPath {} Sample.kelvin.path Sample.kelvin.parameterTypes = .error e := by
  have hunstable : ¬Sample.kelvin.IsStable := by
    intro hstable
    have hnone : Placeholder.ofText? "{k}" = none := hstable "{k}" (List.mem_singleton.2 rfl)
    exact absurd hnone (by decide)
  have hrefused := (ofPath_normal_path_iff Sample.ofPath_kelvin).2.1
  exact ⟨Sample.ofPath_kelvin, hunstable, hrefused hunstable⟩

/-- Not every pattern comes back from its normal path. -/
theorem Pattern.normal_path_refused :
    ¬ ∀ (options : DeclarationOptions) (path : String) (expected : List ParameterType)
      (p : Pattern), ofPath options path expected = .ok p →
        ofPath options p.path p.parameterTypes = .ok p := by
  intro h
  have hagain := h {} "/\x7b\u212A\x7d" [] Sample.kelvin Sample.ofPath_kelvin
  have hrefused : ofPath {} Sample.kelvin.path Sample.kelvin.parameterTypes ≠
      .ok Sample.kelvin := by decide
  exact hrefused hagain

end TypedRouting
