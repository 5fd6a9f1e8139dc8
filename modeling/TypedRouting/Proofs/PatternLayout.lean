import Mathlib.Data.List.Forall2
import TypedRouting.Proofs.Declaration
import TypedRouting.Proofs.Lowercase
import TypedRouting.Proofs.Splitting

/-!
# What a pattern keeps of its declared path

A pattern is read from a declared path one segment at a time. `Declared.Of` says what one segment
makes, on its own and without its place, and `Pattern.ofSegments_eq_ok_iff` that a row of segments
makes a pattern just where each of them makes the part at its place.

* `Pattern.reflects_of_ofPath`: so shapes, parameters, labels and normal path of a pattern are those
  of the declared segments, in order.
-/

namespace TypedRouting

/-! ### Parts of a pattern -/

namespace Declared

/-- The text of the part in a normal path. -/
def text : Declared → String
  | .segment s => s.text
  | .tail array => array.wording.text

def shape : Declared → Shape
  | .segment s => s.shape
  | .tail array => .typed (.array array.element)

def parameter? : Declared → Option ParameterType
  | .segment s => s.parameter?
  | .tail array => some (.array array.element)

def label? : Declared → Option (Option String)
  | .segment s => s.wording?.map Wording.label
  | .tail array => some array.wording.label

/-- What a segment of a declared path makes: a literal, or a part for its placeholder. -/
inductive Of (options : DeclarationOptions) : String → Declared → Prop
  | literal {text : String} (htext : Placeholder.ofText? text = none) :
      Of options text (.segment (.literal (options.literal text)))
  | placeholder {text : String} {p : Placeholder} {t : ScalarType}
      (htext : Placeholder.ofText? text = some p) (htype : ScalarType.ofToken? p.token = some t) :
      Of options text (.ofPlaceholder p.array t ⟨text, p.label⟩)

end Declared

namespace Pattern

/-- The parts of a pattern, the tail last. -/
def parts (p : Pattern) : List Declared := p.fixed.map .segment ++ p.tail.toList.map .tail

theorem texts_eq_map_parts (p : Pattern) : p.texts = p.parts.map Declared.text := by
  simp only [texts, parts, List.map_append, List.map_map]
  rfl

theorem parameterTypes_eq_filterMap_parts (p : Pattern) :
    p.parameterTypes = p.parts.filterMap Declared.parameter? := by
  obtain ⟨fixed, _ | tail⟩ := p
  · simp [parameterTypes, parts, List.filterMap_map, Function.comp_def, Declared.parameter?]
  · simp [parameterTypes, parts, List.filterMap_map, Function.comp_def, Declared.parameter?]

theorem labels_eq_filterMap_parts (p : Pattern) :
    p.labels = p.parts.filterMap Declared.label? := by
  obtain ⟨fixed, _ | tail⟩ := p
  · simp [labels, parts, List.filterMap_map, Function.comp_def, Declared.label?]
  · simp [labels, parts, List.filterMap_map, Function.comp_def, Declared.label?]

theorem parts_eq_nil_iff {p : Pattern} : p.parts = [] ↔ p.isRoot = true := by
  obtain ⟨fixed, _ | tail⟩ := p
  · simp [parts, isRoot]
  · simp [parts, isRoot]

theorem shapes_eq_map_parts {p : Pattern} (h : p.parts ≠ []) :
    p.shapes = p.parts.map Declared.shape := by
  rw [shapes, if_neg (mt parts_eq_nil_iff.2 h)]
  simp only [parts, List.map_append, List.map_map]
  rfl

theorem shapes_of_parts_eq_nil {p : Pattern} (h : p.parts = []) : p.shapes = [.root] := by
  rw [shapes, if_pos (parts_eq_nil_iff.1 h)]

/-! ### Reading -/

variable {options : DeclarationOptions} {path : String} {p : Pattern}

theorem parts_eq_segment_cons_iff {s : Segment} {ds : List Declared} :
    p.parts = .segment s :: ds ↔ ∃ q, q.parts = ds ∧ cons s q = p := by
  obtain ⟨_ | ⟨first, fixed⟩, tail⟩ := p
  · cases tail <;> simp [parts, cons]
  · constructor
    · intro h
      obtain ⟨⟨⟩, hds⟩ := List.cons.inj h
      exact ⟨⟨fixed, tail⟩, hds, rfl⟩
    · rintro ⟨q, rfl, ⟨⟩⟩
      rfl

theorem parts_eq_tail_cons_iff {array : Tail} {ds : List Declared} :
    p.parts = .tail array :: ds ↔ ds = [] ∧ ⟨[], some array⟩ = p := by
  obtain ⟨_ | ⟨first, fixed⟩, _ | own⟩ := p
  · simp [parts]
  · constructor
    · intro h
      obtain ⟨⟨⟩, hds⟩ := List.cons.inj h
      exact ⟨hds.symm, rfl⟩
    · rintro ⟨rfl, ⟨⟩⟩
      rfl
  · simp [parts]
  · simp [parts]

/-- A row of segments makes a pattern just where each makes the part at its place. -/
theorem ofSegments_eq_ok_iff {index : Nat} {texts : List String} :
    ofSegments options path index texts = .ok p ↔
      List.Forall₂ (Declared.Of options) texts p.parts := by
  induction texts generalizing index p with
  | nil =>
    rw [List.forall₂_nil_left_iff]
    constructor
    · intro h
      cases h
      rfl
    · intro h
      obtain ⟨_ | ⟨first, fixed⟩, _ | tail⟩ := p
      · rfl
      · cases h
      · cases h
      · cases h
  | cons text rest ih =>
    rw [ofSegments_cons_eq_ok, List.forall₂_cons_left_iff]
    constructor
    · rintro (⟨htext, q, hq, rfl⟩ | ⟨placeholder, t, htext, htype,
        ⟨harray, q, hq, rfl⟩ | ⟨harray, rfl, rfl⟩⟩)
      · exact ⟨_, q.parts, .literal htext, ih.1 hq, rfl⟩
      · have hpart : Declared.Of options text _ := .placeholder htext htype
        rw [harray] at hpart
        exact ⟨_, q.parts, hpart, ih.1 hq, rfl⟩
      · have hpart : Declared.Of options text _ := .placeholder htext htype
        rw [harray] at hpart
        exact ⟨_, [], hpart, .nil, rfl⟩
    · rintro ⟨d, ds, hd, hds, hparts⟩
      cases hd with
      | literal htext =>
        obtain ⟨q, rfl, hq⟩ := parts_eq_segment_cons_iff.1 hparts
        exact .inl ⟨htext, q, ih.2 hds, hq⟩
      | @placeholder placeholder t htext htype =>
        refine .inr ⟨placeholder, t, htext, htype, ?_⟩
        cases harray : placeholder.array with
        | false =>
          rw [harray] at hparts
          obtain ⟨q, rfl, hq⟩ := parts_eq_segment_cons_iff.1 hparts
          exact .inl ⟨rfl, q, ih.2 hds, hq⟩
        | true =>
          rw [harray] at hparts
          obtain ⟨rfl, hp⟩ := parts_eq_tail_cons_iff.1 hparts
          exact .inr ⟨rfl, List.forall₂_nil_right_iff.1 hds, hp⟩

end Pattern

/-! ### What one segment makes -/

/-- A segment of a declared path as the normal path has it: literal text as the options fold it, and
a placeholder as it is declared. -/
def DeclarationOptions.normal (options : DeclarationOptions) (segment : String) : String :=
  match Placeholder.ofText? segment with
  | none => options.literal segment
  | some _ => segment

theorem DeclarationOptions.normal_of_literal {options : DeclarationOptions} {segment : String}
    (h : Placeholder.ofText? segment = none) :
    options.normal segment = options.literal segment := by
  simp [normal, h]

theorem DeclarationOptions.normal_of_placeholder {options : DeclarationOptions} {segment : String}
    {p : Placeholder} (h : Placeholder.ofText? segment = some p) :
    options.normal segment = segment := by
  simp [normal, h]

/-- The placeholder declares a parameter of this type. -/
def Placeholder.Declares (p : Placeholder) (T : ParameterType) : Prop :=
  ScalarType.ofToken? p.token = some T.element ∧ p.array = T.isArray

/-- The shape that a segment of a declared path gets. -/
inductive Shape.Of (options : DeclarationOptions) : String → Shape → Prop
  | literal {text : String} (htext : Placeholder.ofText? text = none) :
      Of options text (.literal (options.literal text))
  | typed {text : String} {p : Placeholder} {T : ParameterType}
      (htext : Placeholder.ofText? text = some p) (hdeclares : p.Declares T) :
      Of options text (.typed T)

def Shape.parameter? : Shape → Option ParameterType
  | .typed T => some T
  | _ => none

namespace Declared

variable {options : DeclarationOptions} {text : String} {d : Declared}

theorem shape_ne_root (d : Declared) : d.shape ≠ .root := by
  rcases d with (literal | ⟨t, wording⟩) | array
  · exact fun h => by cases h
  · exact fun h => by cases h
  · exact fun h => by cases h

theorem parameter?_shape (d : Declared) : d.shape.parameter? = d.parameter? := by
  rcases d with (literal | ⟨t, wording⟩) | array <;> rfl

theorem Of.text_eq (h : Of options text d) : d.text = options.normal text := by
  cases h with
  | literal htext =>
    rw [DeclarationOptions.normal_of_literal htext]
    rfl
  | @placeholder p t htext htype =>
    rw [DeclarationOptions.normal_of_placeholder htext]
    cases p.array <;> rfl

theorem Of.shape_of (h : Of options text d) : Shape.Of options text d.shape := by
  cases h with
  | literal htext => exact .literal htext
  | @placeholder p t htext htype =>
    cases harray : p.array with
    | false => exact .typed htext ⟨htype, harray⟩
    | true => exact .typed htext ⟨htype, harray⟩

/-- A part has a parameter where its segment is a placeholder, and it is the declared one. -/
theorem Of.rel_parameter? (h : Of options text d) :
    Option.Rel Placeholder.Declares (Placeholder.ofText? text) d.parameter? := by
  cases h with
  | literal htext =>
    rw [htext]
    exact .none
  | @placeholder p t htext htype =>
    rw [htext]
    cases harray : p.array with
    | false => exact .some ⟨htype, harray⟩
    | true => exact .some ⟨htype, harray⟩

theorem Of.rel_label? (h : Of options text d) :
    Option.Rel (fun p label => Placeholder.label p = label) (Placeholder.ofText? text)
      d.label? := by
  cases h with
  | literal htext =>
    rw [htext]
    exact .none
  | @placeholder p t htext htype =>
    rw [htext]
    cases p.array with
    | false => exact .some rfl
    | true => exact .some rfl

end Declared

/-! ### Shapes of a pattern -/

namespace Pattern

variable {p : Pattern}

theorem filterMap_shapes (p : Pattern) :
    p.shapes.filterMap Shape.parameter? = p.parameterTypes := by
  rw [parameterTypes_eq_filterMap_parts]
  by_cases h : p.parts = []
  · rw [shapes_of_parts_eq_nil h, h]
    rfl
  · rw [shapes_eq_map_parts h, List.filterMap_map]
    exact congrFun (congrArg List.filterMap (funext Declared.parameter?_shape)) p.parts

theorem root_mem_shapes_iff : Shape.root ∈ p.shapes ↔ p.parts = [] := by
  by_cases h : p.parts = []
  · simp [shapes_of_parts_eq_nil h, h]
  · simp [shapes_eq_map_parts h, h, Declared.shape_ne_root]

theorem array_not_mem_shapes_fixed (fixed : List Segment) (t : ScalarType) :
    Shape.typed (.array t) ∉ fixed.map Segment.shape := by
  rw [List.mem_map]
  rintro ⟨s, -, hs⟩
  cases s with
  | literal text => cases hs
  | placeholder u wording => cases hs

theorem array_not_mem_shapes (fixed : List Segment) (t : ScalarType) :
    Shape.typed (.array t) ∉ shapes ⟨fixed, none⟩ := by
  cases fixed with
  | nil => simp [shapes, isRoot]
  | cons s fixed => simpa [shapes, isRoot] using array_not_mem_shapes_fixed (s :: fixed) t

theorem shapes_tail (fixed : List Segment) (array : Tail) :
    shapes ⟨fixed, some array⟩ = fixed.map Segment.shape ++ [.typed (.array array.element)] := by
  simp [shapes, isRoot]

theorem hasArray_iff : p.hasArray = true ↔ ∃ t, Shape.typed (.array t) ∈ p.shapes := by
  obtain ⟨fixed, _ | array⟩ := p
  · simp [hasArray, array_not_mem_shapes]
  · refine iff_of_true rfl ⟨array.element, ?_⟩
    rw [shapes_tail]
    exact List.mem_append_right _ (List.mem_singleton_self _)

theorem array_last {i : Nat} {t : ScalarType} (h : p.shapes[i]? = some (.typed (.array t))) :
    i + 1 = p.shapes.length := by
  obtain ⟨fixed, _ | array⟩ := p
  · exact absurd (List.mem_of_getElem? h) (array_not_mem_shapes fixed t)
  · rw [shapes_tail] at h ⊢
    rcases Nat.lt_or_ge i (fixed.map Segment.shape).length with hi | hi
    · rw [List.getElem?_append_left hi] at h
      exact absurd (List.mem_of_getElem? h) (array_not_mem_shapes_fixed fixed t)
    · rw [List.getElem?_append_right hi] at h
      have hzero := (List.getElem?_eq_some_iff.1 h).1
      simp only [List.length_singleton, List.length_append] at hzero ⊢
      omega

/-- What the pattern of a declared path keeps of the path. -/
structure Reflects (options : DeclarationOptions) (path : String) (p : Pattern) : Prop where
  shapes_ne_nil : p.shapes ≠ []
  /-- The root stands for a path without segments, -/
  root_iff : Shape.root ∈ p.shapes ↔ Path.segments path = []
  /-- and it stands alone. -/
  root_alone : Shape.root ∈ p.shapes → p.shapes = [.root]
  /-- Each segment of the path has its shape, at the same place. -/
  shapes_of : Path.segments path ≠ [] →
    List.Forall₂ (Shape.Of options) (Path.segments path) p.shapes
  /-- An array is the last shape, so there is one at most. -/
  array_last : ∀ (i : Nat) (t : ScalarType),
    p.shapes[i]? = some (.typed (.array t)) → i + 1 = p.shapes.length
  hasArray_iff : p.hasArray = true ↔ ∃ t, Shape.typed (.array t) ∈ p.shapes
  parameterTypes_eq : p.parameterTypes = p.shapes.filterMap Shape.parameter?
  /-- The parameters are those that the placeholders declare, in order, -/
  parameters : List.Forall₂ Placeholder.Declares
    ((Path.segments path).filterMap Placeholder.ofText?) p.parameterTypes
  /-- and there is a label for each, the one of its placeholder. -/
  length_labels : p.labels.length = p.parameterTypes.length
  labels_eq : p.labels = ((Path.segments path).filterMap Placeholder.ofText?).map Placeholder.label
  path_isNormal : Path.IsNormal p.path
  segments_path : Path.segments p.path = (Path.segments path).map options.normal

variable {options : DeclarationOptions} {path : String} {expected : List ParameterType}

theorem isSegment_normal {text : String} (h : Path.IsSegment text) :
    Path.IsSegment (options.normal text) := by
  obtain ⟨hne, hslash⟩ := h
  unfold DeclarationOptions.normal DeclarationOptions.literal
  split
  · split
    · exact ⟨hne, hslash⟩
    · exact ⟨Text.lowercase_ne_empty hne, Text.slash_not_mem_lowercase hslash⟩
  · exact ⟨hne, hslash⟩

theorem texts_of_parts {texts : List String}
    (h : List.Forall₂ (Declared.Of options) texts p.parts) :
    p.texts = texts.map options.normal := by
  have heq : List.Forall₂ (· = ·) (texts.map options.normal) (p.parts.map Declared.text) := by
    rw [List.forall₂_map_left_iff, List.forall₂_map_right_iff]
    exact h.imp fun text d hd => hd.text_eq.symm
  rw [List.forall₂_eq_eq_eq] at heq
  rw [texts_eq_map_parts, heq]

theorem isSegment_of_parts (h : List.Forall₂ (Declared.Of options) (Path.segments path) p.parts) :
    ∀ text ∈ p.texts, Path.IsSegment text := by
  rw [texts_of_parts h]
  intro text htext
  obtain ⟨own, hown, rfl⟩ := List.mem_map.1 htext
  exact isSegment_normal (Path.isSegment_of_mem hown)

theorem segments_path_of_parts
    (h : List.Forall₂ (Declared.Of options) (Path.segments path) p.parts) :
    Path.segments p.path = (Path.segments path).map options.normal := by
  rw [Pattern.path, Path.segments_join (isSegment_of_parts h), texts_of_parts h]

theorem declares_of_parts {texts : List String}
    (h : List.Forall₂ (Declared.Of options) texts p.parts) :
    List.Forall₂ Placeholder.Declares (texts.filterMap Placeholder.ofText?) p.parameterTypes := by
  rw [parameterTypes_eq_filterMap_parts]
  exact List.rel_filterMap (fun text d hd => hd.rel_parameter?) h

/-- **The layout of a pattern.** The pattern of a declared path reflects it, and declares exactly
the expected parameters. -/
theorem reflects_of_ofPath (h : ofPath options path expected = .ok p) :
    p.Reflects options path ∧ p.parameterTypes = expected := by
  obtain ⟨-, hread, hexpected⟩ := ofPath_eq_ok.1 h
  have hparts := ofSegments_eq_ok_iff.1 hread
  have hroot : p.parts = [] ↔ Path.segments path = [] := by
    rw [← List.length_eq_zero_iff, ← hparts.length_eq, List.length_eq_zero_iff]
  have hparameters := declares_of_parts hparts
  have hlabels : p.labels =
      ((Path.segments path).filterMap Placeholder.ofText?).map Placeholder.label := by
    rw [labels_eq_filterMap_parts, ← List.forall₂_eq_eq_eq, List.forall₂_map_right_iff]
    have hrel := List.rel_filterMap (fun text d hd => Declared.Of.rel_label? hd) hparts
    exact hrel.flip.imp fun label q hq => Eq.symm hq
  refine ⟨{
    shapes_ne_nil := ?_
    root_iff := root_mem_shapes_iff.trans hroot
    root_alone := fun hmem => shapes_of_parts_eq_nil (root_mem_shapes_iff.1 hmem)
    shapes_of := ?_
    array_last := fun i t => array_last
    hasArray_iff := hasArray_iff
    parameterTypes_eq := (filterMap_shapes p).symm
    parameters := hparameters
    length_labels := by rw [hlabels, List.length_map, hparameters.length_eq]
    labels_eq := hlabels
    path_isNormal := Path.isNormal_join (isSegment_of_parts hparts)
    segments_path := segments_path_of_parts hparts }, hexpected⟩
  · by_cases hnil : p.parts = []
    · simp [shapes_of_parts_eq_nil hnil]
    · simp [shapes_eq_map_parts hnil, hnil]
  · intro hne
    rw [shapes_eq_map_parts (mt hroot.1 hne), List.forall₂_map_right_iff]
    exact hparts.imp fun text d hd => hd.shape_of

end Pattern

namespace Sample

/-- The pattern of `Ärger//{Integer No-1}/{Boolean ...} flags/`. -/
def trouble : Pattern :=
  ⟨[.literal "ärger", .placeholder (.whole .integer) ⟨"{Integer No-1}", some "No-1"⟩],
    some ⟨.boolean, "{Boolean ...} flags", some "flags"⟩⟩

end Sample

/-- A literal that is not ASCII, slashes that count for nothing, and both kinds of labels. -/
theorem Pattern.reflects_of_ofPath_sample :
    ofPath {} "Ärger//{Integer No-1}/{Boolean ...} flags/" Sample.trouble.parameterTypes =
      .ok Sample.trouble ∧
    Sample.trouble.path = "/ärger/{Integer No-1}/{Boolean ...} flags" ∧
    Sample.trouble.Reflects {} "Ärger//{Integer No-1}/{Boolean ...} flags/" := by
  have hp : ofPath {} "Ärger//{Integer No-1}/{Boolean ...} flags/" Sample.trouble.parameterTypes =
      .ok Sample.trouble := by decide
  exact ⟨hp, by decide, (Pattern.reflects_of_ofPath hp).1⟩

end TypedRouting
