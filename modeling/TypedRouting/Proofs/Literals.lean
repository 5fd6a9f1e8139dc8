import TypedRouting.Proofs.LetterCase
import TypedRouting.Proofs.PatternLayout

/-!
# Literals of a declared path in requests

A segment of a declared path that is no placeholder becomes a literal at its place in the pattern.

* `Pattern.getElem?_fixed_of_literal`: the literal is that segment, folded as the options say.
* `Segment.credit?_literal_iff`: a literal earns its points for just the segments that fold to it.
* `literal_credit_iff`: so a declared literal earns them for the segments that agree with it, in
  lower case or, where case matters, as they stand.
-/

namespace TypedRouting

/-! ### The place of a literal -/

namespace Pattern

variable {options : DeclarationOptions} {path : String} {expected : List ParameterType}
  {p : Pattern} {i : Nat}

theorem getElem?_fixed_of_parts {s : Segment} (h : p.parts[i]? = some (.segment s)) :
    p.fixed[i]? = some s := by
  have hlength : (p.fixed.map Declared.segment).length = p.fixed.length := List.length_map _
  rw [parts] at h
  rcases Nat.lt_or_ge i p.fixed.length with hi | hi
  · rw [List.getElem?_append_left (by omega), List.getElem?_map, Option.map_eq_some_iff] at h
    obtain ⟨own, hown, ⟨⟩⟩ := h
    exact hown
  · -- beyond the fixed segments there is only the array
    rw [List.getElem?_append_right (by omega)] at h
    have hmem := List.mem_of_getElem? h
    rw [List.mem_map] at hmem
    obtain ⟨array, -, harray⟩ := hmem
    cases harray

theorem getElem?_fixed_of_literal (h : ofPath options path expected = .ok p) {s : String}
    (hs : (Path.segments path)[i]? = some s) (hliteral : Placeholder.ofText? s = none) :
    p.fixed[i]? = some (.literal (options.literal s)) := by
  obtain ⟨-, hread, -⟩ := ofPath_eq_ok.1 h
  have hparts := ofSegments_eq_ok_iff.1 hread
  obtain ⟨hi, hget⟩ := List.getElem?_eq_some_iff.1 hs
  have hi' : i < p.parts.length := by
    rw [← hparts.length_eq]
    exact hi
  have hof : Declared.Of options s p.parts[i] := by
    have hplace := hparts.get hi hi'
    simp only [List.get_eq_getElem, hget] at hplace
    exact hplace
  apply getElem?_fixed_of_parts
  rw [List.getElem?_eq_getElem hi']
  generalize p.parts[i] = d at hof
  cases hof with
  | literal _ => rfl
  | placeholder htext _ =>
    rw [hliteral] at htext
    cases htext

end Pattern

/-! ### The points of a literal -/

theorem Segment.credit?_literal_iff {options : DeclarationOptions} {text v : String} :
    (Segment.literal text).credit? options.caseSensitive v = some literalScore ↔
      options.literal v = text := by
  have hmatches : literalMatches options.caseSensitive text v = true ↔ options.literal v = text :=
    literalMatches_iff.trans eq_comm
  rw [← hmatches, credit?]
  split
  · next hmatch => simp [hmatch]
  · next hmatch => simp [hmatch]

theorem DeclarationOptions.literal_eq_iff {options : DeclarationOptions} {s v : String} :
    options.literal v = options.literal s ↔
      if options.caseSensitive then v = s else Text.lowercase v = Text.lowercase s := by
  unfold literal
  split
  · exact Iff.rfl
  · exact Iff.rfl

/-- **Literals in requests.** Where case does not matter a literal is matched by just the texts that
have it as their lower case, whether they are compared by bytes or not. So a declared segment that
is no placeholder stands at its place as a literal, and earns the points of one for the segments
with the same lower case; where case matters, for the same segment alone. -/
theorem literal_credit_iff :
    (∀ literal value : String,
      literalMatches false literal value = true ↔ Text.lowercase value = literal) ∧
    ∀ (options : DeclarationOptions) (path : String) (expected : List ParameterType) (p : Pattern),
      Pattern.ofPath options path expected = .ok p →
      ∀ (i : Nat) (s : String), (Path.segments path)[i]? = some s →
        Placeholder.ofText? s = none →
        ∃ text, p.fixed[i]? = some (.literal text) ∧
          ∀ v, (Segment.literal text).credit? options.caseSensitive v = some literalScore ↔
            if options.caseSensitive then v = s else Text.lowercase v = Text.lowercase s := by
  refine ⟨fun literal value => Text.lowersTo_iff, ?_⟩
  intro options path expected p hp i s hs hliteral
  refine ⟨_, Pattern.getElem?_fixed_of_literal hp hs hliteral, fun v => ?_⟩
  rw [Segment.credit?_literal_iff, DeclarationOptions.literal_eq_iff]

/-- The Kelvin sign for `k`, and a capital sigma in two places of a word. -/
theorem literal_credit_iff_sample :
    let p : Pattern := ⟨[.literal "kilo", .literal "σας"], none⟩
    Pattern.ofPath {} "/Kilo/ΣΑΣ" [] = .ok p ∧
    (Path.segments "/Kilo/ΣΑΣ")[0]? = some "Kilo" ∧ Placeholder.ofText? "Kilo" = none ∧
    (Path.segments "/Kilo/ΣΑΣ")[1]? = some "ΣΑΣ" ∧ Placeholder.ofText? "ΣΑΣ" = none ∧
    literalMatches false "kilo" "KILO" = true ∧
    (∃ text, p.fixed[0]? = some (.literal text) ∧
      (Segment.literal text).credit? false "\u212AILO" = some literalScore) ∧
    ∃ text, p.fixed[1]? = some (.literal text) ∧
      (Segment.literal text).credit? false "σαΣ" = some literalScore ∧
      (Segment.literal text).credit? false "σασ" ≠ some literalScore := by
  intro p
  obtain ⟨hmatches, hcredit⟩ := literal_credit_iff
  have hp : Pattern.ofPath {} "/Kilo/ΣΑΣ" [] = .ok p := by decide
  have hkilo : (Path.segments "/Kilo/ΣΑΣ")[0]? = some "Kilo" := by decide
  have hword : (Path.segments "/Kilo/ΣΑΣ")[1]? = some "ΣΑΣ" := by decide
  obtain ⟨kilo, hfirst, hkilos⟩ := hcredit {} _ _ p hp 0 "Kilo" hkilo (by decide)
  obtain ⟨word, hsecond, hwords⟩ := hcredit {} _ _ p hp 1 "ΣΑΣ" hword (by decide)
  refine ⟨hp, hkilo, by decide, hword, by decide, (hmatches _ _).2 (by decide), ?_, ?_⟩
  · exact ⟨kilo, hfirst, (hkilos _).2 (by decide)⟩
  · exact ⟨word, hsecond, (hwords _).2 (by decide), fun h => absurd ((hwords _).1 h) (by decide)⟩

end TypedRouting
