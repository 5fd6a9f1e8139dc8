import TypedRouting.Proofs.Declaration
import TypedRouting.Proofs.Fitting
import TypedRouting.Proofs.Splitting

/-!
# Requests made from a declared path

A declared path becomes a request once texts are chosen for its placeholders. `Choice` is what may
be chosen for one parameter and `Path.substitute` puts the choices into their places.

* `Pattern.fits_substitute`: the segments that result fit the pattern of the path and make the
  chosen values.
* `Pattern.bind_substitute`: so the request is bound to these values, and it scores in both modes.
-/

namespace TypedRouting

/-! ### Choices -/

/-- A text that can stand for a placeholder: it is a single segment, and it converts. -/
structure Filling (t : ScalarType) where
  text : String
  content : t.Carrier
  isSegment : Path.IsSegment text
  converts : t.convert text = .ok content

theorem Filling.convertsAll {t : ScalarType} (fillings : List (Filling t)) :
    t.ConvertsAll (fillings.map (·.text)) (fillings.map (·.content)) := by
  induction fillings with
  | nil => exact .nil
  | cons filling fillings ih => exact .cons filling.converts ih

/-- What is chosen for a placeholder: one text, or a row of texts for an array. -/
inductive Choice
  | one (type : ScalarType) (filling : Filling type)
  | many (element : ScalarType) (fillings : List (Filling element))

namespace Choice

/-- The parameter that the choice is for. -/
def type : Choice → ParameterType
  | .one t _ => .scalar t
  | .many t _ => .array t

/-- The segments that the choice takes in a request. -/
def texts : Choice → List String
  | .one _ filling => [filling.text]
  | .many _ fillings => fillings.map (·.text)

/-- The argument that the choice makes. -/
def value : Choice → Value
  | .one t filling => .scalar t filling.content
  | .many t fillings => .array t (fillings.map fun filling => .scalar t filling.content)

theorem isSegment_of_mem_texts {c : Choice} {text : String} (h : text ∈ c.texts) :
    Path.IsSegment text := by
  cases c with
  | one t filling =>
    obtain rfl := List.mem_singleton.1 h
    exact filling.isSegment
  | many t fillings =>
    obtain ⟨filling, -, rfl⟩ := List.mem_map.1 h
    exact filling.isSegment

end Choice

/-! ### Substitution -/

namespace Path

/-- The segments of a declared path with the choices in the places of its placeholders, in order. A
placeholder for which there is none left stays. -/
def substitute : List String → List Choice → List String
  | [], _ => []
  | text :: rest, choices =>
    match Placeholder.ofText? text, choices with
    | some _, c :: choices => c.texts ++ substitute rest choices
    | _, choices => text :: substitute rest choices

theorem isSegment_of_mem_substitute {texts : List String} (h : ∀ text ∈ texts, IsSegment text)
    {choices : List Choice} : ∀ text ∈ substitute texts choices, IsSegment text := by
  induction texts generalizing choices with
  | nil => simp [substitute]
  | cons text rest ih =>
    have hrest : ∀ {choices : List Choice}, ∀ t ∈ substitute rest choices, IsSegment t :=
      ih fun t ht => h t (List.mem_cons_of_mem _ ht)
    unfold substitute
    split
    · intro t ht
      rcases List.mem_append.1 ht with ht | ht
      · exact Choice.isSegment_of_mem_texts ht
      · exact hrest t ht
    · exact List.forall_mem_cons.2 ⟨h text (by simp), hrest⟩

end Path

namespace Pattern

variable {options : DeclarationOptions} {path : String} {expected : List ParameterType}
  {p : Pattern} {choices : List Choice}

theorem fits_substitute {index : Nat} {texts : List String}
    (hp : ofSegments options path index texts = .ok p)
    (htypes : choices.map Choice.type = p.parameterTypes) :
    p.Fits options.caseSensitive (Path.substitute texts choices) (choices.map Choice.value) := by
  induction texts generalizing index p choices with
  | nil =>
    cases hp
    obtain rfl : choices = [] := by simpa [parameterTypes] using htypes
    exact .nil
  | cons text rest ih =>
    rcases ofSegments_cons_eq_ok.1 hp with ⟨htext, q, hq, rfl⟩ |
      ⟨placeholder, t, htext, -, ⟨-, q, hq, rfl⟩ | ⟨-, rfl, rfl⟩⟩
    · simp only [Path.substitute, htext]
      exact .literal (literalMatches_iff.2 rfl) (ih hq htypes)
    · obtain ⟨c, others, rfl, hc, hothers⟩ := List.map_eq_cons_iff.1 htypes
      cases c with
      | one u filling =>
        obtain rfl : u = t := by simpa [Choice.type] using hc
        simp only [Path.substitute, htext]
        exact .placeholder filling.converts (ih hq hothers)
      | many u fillings => cases hc
    · obtain ⟨c, others, rfl, hc, hothers⟩ := List.map_eq_cons_iff.1 htypes
      obtain rfl : others = [] := by simpa using hothers
      cases c with
      | one u filling => cases hc
      | many u fillings =>
        obtain rfl : u = t := by simpa [Choice.type] using hc
        have hitems : (Tail.mk u ⟨text, placeholder.label⟩).element.ConvertsAll _ _ :=
          Filling.convertsAll fillings
        simpa [Path.substitute, htext, Choice.texts, Choice.value, Function.comp_def] using
          Fits.tail hitems

/-- **Substitution.** A request made from a declared path is bound to the chosen values, in the
order of the declaration, and it scores in both modes. -/
theorem bind_substitute (hp : ofPath options path expected = .ok p)
    (htypes : choices.map Choice.type = expected) :
    let request := "/".intercalate (Path.substitute (Path.segments path) choices)
    p.bind request = .ok (choices.map Choice.value) ∧
      ∀ mode, 0 < p.score ⟨mode, options.caseSensitive⟩ request := by
  intro request
  obtain ⟨-, hsegments, rfl⟩ := ofPath_eq_ok.1 hp
  have hrequest : Path.segments request = Path.substitute (Path.segments path) choices :=
    Path.segments_intercalate (Path.isSegment_of_mem_substitute fun _ => Path.isSegment_of_mem)
  have hfits := fits_substitute hsegments htypes
  rw [← hrequest] at hfits
  refine ⟨hfits.bind.2.2, fun mode => ?_⟩
  obtain ⟨n, hn⟩ := hfits.score
  rw [score, hn mode]
  exact Nat.succ_pos n

end Pattern

/-! ### A small path -/

namespace Sample

/-- The pattern of `/Files/{Integer}/{Boolean...} flags`. -/
def files : Pattern :=
  ⟨[.literal "files", .placeholder (.whole .integer) ⟨"{Integer}", none⟩],
    some ⟨.boolean, "{Boolean...} flags", some "flags"⟩⟩

/-- A number, and two truth values for the array. -/
def choices : List Choice :=
  [.one (.whole .integer) ⟨"7", ⟨7, by decide, by decide⟩, by decide, by decide⟩,
    .many .boolean [⟨"TRUE", true, by decide, by decide⟩, ⟨"no", false, by decide, by decide⟩]]

end Sample

/-- The literal is declared with a capital and goes into the request with it. -/
theorem Pattern.bind_substitute_sample :
    ofPath {} "/Files/{Integer}/{Boolean...} flags" Sample.files.parameterTypes =
      .ok Sample.files ∧
    Sample.choices.map Choice.type = Sample.files.parameterTypes ∧
    Sample.files.bind "Files/7/TRUE/no" = .ok (Sample.choices.map Choice.value) ∧
    ∀ mode, 0 < Sample.files.score ⟨mode, false⟩ "Files/7/TRUE/no" := by
  have hp : ofPath {} "/Files/{Integer}/{Boolean...} flags" Sample.files.parameterTypes =
      .ok Sample.files := by decide
  have htypes : Sample.choices.map Choice.type = Sample.files.parameterTypes := by decide
  have hrequest : "/".intercalate (Path.substitute
      (Path.segments "/Files/{Integer}/{Boolean...} flags") Sample.choices) =
      "Files/7/TRUE/no" := by decide
  rw [← hrequest]
  exact ⟨hp, htypes, Pattern.bind_substitute hp htypes⟩

end TypedRouting
