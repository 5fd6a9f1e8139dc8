import TypedRouting.Operation.Invocation
import TypedRouting.Proofs.PatternLayout

/-!
# Declarations in other words

Two declared paths are alike if their segments are, one by one: literals of the same text once they
are folded, or placeholders of the same kind whose tokens stand for the same type.

* `Pattern.rel_ofSegments`: what is read from them differs in the wording only, and so does the
  error.
* `Pattern.Alike.scoreSegments_eq`, `Pattern.Alike.bindSegments_eq`: the wording of a pattern has no
  effect on requests.
* `Pattern.ofPath_of_alike`: so declared paths that are alike make patterns that match and bind
  alike, or fail with the same kind of error.
-/

namespace TypedRouting

/-! ### Declarations that are alike -/

/-- The errors are of one kind and differ at most in the texts that they repeat. -/
inductive PatternError.SameKind : PatternError → PatternError → Prop
  | unknownParameterType {segment segment' token token' : String} :
      SameKind (.unknownParameterType segment token) (.unknownParameterType segment' token')
  | arrayNotLast {path path' segment segment' : String} {index : Nat} :
      SameKind (.arrayNotLast path segment index) (.arrayNotLast path' segment' index)
  | parameterMismatch {path path' : String} {expected found : List ParameterType} :
      SameKind (.parameterMismatch path expected found) (.parameterMismatch path' expected found)
  | tooManySegments {path path' : String} {count limit : Nat} :
      SameKind (.tooManySegments path count limit) (.tooManySegments path' count limit)

/-- The segments are literals of the same text, or placeholders of the same kind whose tokens stand
for the same type or for none. -/
inductive Declared.Alike (options : DeclarationOptions) : String → String → Prop
  | literal {text text' : String} (htext : Placeholder.ofText? text = none)
      (htext' : Placeholder.ofText? text' = none)
      (hliteral : options.literal text = options.literal text') : Alike options text text'
  | placeholder {text text' : String} {p p' : Placeholder}
      (htext : Placeholder.ofText? text = some p) (htext' : Placeholder.ofText? text' = some p')
      (harray : p.array = p'.array)
      (htype : ScalarType.ofToken? p.token = ScalarType.ofToken? p'.token) :
      Alike options text text'

/-- The declared paths have segments that are alike, in order. -/
def Path.Alike (options : DeclarationOptions) (path path' : String) : Prop :=
  List.Forall₂ (Declared.Alike options) (Path.segments path) (Path.segments path')

variable {options : DeclarationOptions}

theorem Declared.rel_ofText {text text' : String} (h : Declared.Alike options text text')
    (path path' : String) (index : Nat) (last : Bool) :
    Outcome.Rel PatternError.SameKind (fun d d' => d.shape = d'.shape)
      (Declared.ofText options path index last text)
      (Declared.ofText options path' index last text') := by
  cases h with
  | literal htext htext' hliteral =>
    simp only [Declared.ofText, htext, htext', hliteral]
    exact .ok rfl
  | @placeholder p p' htext htext' harray htype =>
    simp only [Declared.ofText, htext, htext', harray, htype]
    by_cases hlast : (p'.array && !last) = true
    · simp only [hlast, if_true]
      exact .error .arrayNotLast
    · simp only [hlast]
      cases ScalarType.ofToken? p'.token with
      | none => exact .error .unknownParameterType
      | some t => cases p'.array <;> exact .ok rfl

/-! ### Patterns that are alike -/

namespace Segment

variable {s s' : Segment}

theorem credit?_of_shape (h : s.shape = s'.shape) (caseSensitive : Bool) (value : String) :
    s.credit? caseSensitive value = s'.credit? caseSensitive value := by
  cases s <;> cases s' <;> cases h <;> rfl

end Segment

/-- The patterns differ at most in the wording of their placeholders. -/
structure Pattern.Alike (p q : Pattern) : Prop where
  fixed_eq : p.fixed.map Segment.shape = q.fixed.map Segment.shape
  element_eq : p.tail.map Tail.element = q.tail.map Tail.element

theorem fixedCredit?_of_shapes {ss ss' : List Segment}
    (h : ss.map Segment.shape = ss'.map Segment.shape) (options : ScoreOptions)
    (request : List String) :
    fixedCredit? options ss request = fixedCredit? options ss' request := by
  induction ss generalizing ss' request with
  | nil =>
    obtain rfl : ss' = [] := by simpa using h.symm
    rfl
  | cons s ss ih =>
    cases ss' with
    | nil => cases h
    | cons s' ss' =>
      obtain ⟨hshape, hrest⟩ := List.cons.inj h
      cases request with
      | nil => rfl
      | cons v vs => simp only [fixedCredit?, Segment.credit?_of_shape hshape, ih hrest]

theorem bindFixed_of_shapes {ss ss' : List Segment}
    (h : ss.map Segment.shape = ss'.map Segment.shape) (index : Nat) (request : List String) :
    bindFixed index ss request = bindFixed index ss' request := by
  induction ss generalizing ss' index request with
  | nil =>
    obtain rfl : ss' = [] := by simpa using h.symm
    rfl
  | cons s ss ih =>
    cases ss' with
    | nil => cases h
    | cons s' ss' =>
      obtain ⟨hshape, hrest⟩ := List.cons.inj h
      cases s with
      | literal text =>
        cases s' with
        | literal text' => exact ih hrest (index + 1) request.tail
        | placeholder t wording => cases hshape
      | placeholder t wording =>
        cases s' with
        | literal text' => cases hshape
        | placeholder t' wording' =>
          cases hshape
          cases request with
          | nil => rfl
          | cons v vs => simp only [bindFixed, ih hrest]

namespace Pattern

variable {p q : Pattern}

theorem Alike.length_eq (h : p.Alike q) : p.fixed.length = q.fixed.length := by
  simpa using congrArg List.length h.fixed_eq

/-- Tails of the same element type, if there are any. -/
theorem Alike.tail_cases (h : p.Alike q) : (p.tail = none ∧ q.tail = none) ∨
    ∃ tail tail', p.tail = some tail ∧ q.tail = some tail' ∧ tail.element = tail'.element := by
  have helement := h.element_eq
  cases hp : p.tail with
  | none =>
    cases hq : q.tail with
    | none => exact .inl ⟨rfl, rfl⟩
    | some tail' => simp [hp, hq] at helement
  | some tail =>
    cases hq : q.tail with
    | none => simp [hp, hq] at helement
    | some tail' => exact .inr ⟨tail, tail', rfl, rfl, by simpa [hp, hq] using helement⟩

theorem Alike.shapes_eq (h : p.Alike q) : p.shapes = q.shapes := by
  have hempty : p.fixed.isEmpty = q.fixed.isEmpty := by
    simpa using congrArg List.isEmpty h.fixed_eq
  rcases h.tail_cases with ⟨hp, hq⟩ | ⟨tail, tail', hp, hq, helement⟩
  · simp [shapes, isRoot, hp, hq, hempty, h.fixed_eq]
  · simp [shapes, isRoot, hp, hq, h.fixed_eq, helement]

theorem Alike.parameterTypes_eq (h : p.Alike q) : p.parameterTypes = q.parameterTypes := by
  rw [← filterMap_shapes p, ← filterMap_shapes q, h.shapes_eq]

theorem Alike.admits_eq (h : p.Alike q) (mode : ScoringMode) (count : Nat) :
    p.admits mode count = q.admits mode count := by
  rcases h.tail_cases with ⟨hp, hq⟩ | ⟨tail, tail', hp, hq, -⟩
  · simp only [admits, hp, hq, h.length_eq]
  · cases mode <;> simp only [admits, hp, hq, h.length_eq]

theorem Alike.tailCredit?_eq (h : p.Alike q) (request : List String) :
    p.tailCredit? request = q.tailCredit? request := by
  rcases h.tail_cases with ⟨hp, hq⟩ | ⟨tail, tail', hp, hq, helement⟩
  · simp only [tailCredit?, hp, hq]
  · simp only [tailCredit?, hp, hq, Tail.credit?, h.length_eq, helement]

theorem Alike.scoreSegments_eq (h : p.Alike q) (options : ScoreOptions) (request : List String) :
    p.scoreSegments options request = q.scoreSegments options request := by
  have hfixed := fixedCredit?_of_shapes h.fixed_eq options request
  simp only [scoreSegments, h.admits_eq, h.tailCredit?_eq, hfixed]

theorem Alike.bindSegments_eq (h : p.Alike q) (request : List String) :
    p.bindSegments request = q.bindSegments request := by
  have hfixed := bindFixed_of_shapes h.fixed_eq 0 request
  unfold bindSegments
  rcases h.tail_cases with ⟨hp, hq⟩ | ⟨tail, tail', hp, hq, helement⟩
  · rw [hp, hq, hfixed]
    cases bindFixed 0 q.fixed request <;> rfl
  · have hbind : tail.bind = tail'.bind := by
      funext items
      rw [Tail.bind, Tail.bind, helement]
    rw [hp, hq, hfixed, h.length_eq]
    cases bindFixed 0 q.fixed request with
    | error e => rfl
    | ok fixed => simp only [hbind]

/-! ### Reading -/

theorem Alike.cons {s s' : Segment} (hs : s.shape = s'.shape) (h : p.Alike q) :
    (cons s p).Alike (Pattern.cons s' q) :=
  ⟨congrArg₂ List.cons hs h.fixed_eq, h.element_eq⟩

/-- Rows of segments that are alike are read alike, or fail at the same place. -/
theorem rel_ofSegments {texts texts' : List String}
    (h : List.Forall₂ (Declared.Alike options) texts texts') (path path' : String) (index : Nat) :
    Outcome.Rel PatternError.SameKind Alike (ofSegments options path index texts)
      (ofSegments options path' index texts') := by
  induction h generalizing index with
  | nil => exact .ok ⟨rfl, rfl⟩
  | @cons text text' rest rest' hhead htail ih =>
    have hlast : rest.isEmpty = rest'.isEmpty := by cases htail <;> rfl
    have hfirst := Declared.rel_ofText hhead path path' index rest'.isEmpty
    rw [ofSegments, ofSegments, hlast]
    generalize Declared.ofText options path index rest'.isEmpty text = result at hfirst ⊢
    generalize Declared.ofText options path' index rest'.isEmpty text' = result' at hfirst ⊢
    cases hfirst with
    | error hkind => exact .error hkind
    | @ok d d' hshape =>
      -- the shape of a tail is none that a fixed segment has, so both parts are of one sort
      cases d with
      | segment s =>
        cases d' with
        | segment s' => exact (ih (index + 1)).map fun _ _ => Alike.cons hshape
        | tail tail' => cases s <;> cases hshape
      | tail tail =>
        cases d' with
        | segment s' => cases s' <;> cases hshape
        | tail tail' =>
          have helement : tail.element = tail'.element := by
            simpa [Declared.shape] using hshape
          exact .ok ⟨rfl, congrArg some helement⟩

/-- **Other words.** Declared paths that are alike make patterns of the same shapes and parameters,
which score and bind every request alike, or they fail with the same kind of error. -/
theorem ofPath_of_alike {path path' : String} (h : Path.Alike options path path')
    (expected : List ParameterType) :
    Outcome.Rel PatternError.SameKind
      (fun p q => p.shapes = q.shapes ∧ p.parameterTypes = q.parameterTypes ∧
        ∀ request, (∀ scoring, p.score scoring request = q.score scoring request) ∧
          p.bind request = q.bind request)
      (ofPath options path expected) (ofPath options path' expected) := by
  have hlength : (Path.segments path).length = (Path.segments path').length := h.length_eq
  have hread := rel_ofSegments h path path' 0
  unfold ofPath
  simp only [hlength]
  by_cases hlimit : options.maxSegments < (Path.segments path').length
  · simp only [hlimit, if_true]
    exact .error .tooManySegments
  · simp only [hlimit, if_false]
    generalize ofSegments options path 0 (Path.segments path) = result at hread ⊢
    generalize ofSegments options path' 0 (Path.segments path') = result' at hread ⊢
    cases hread with
    | error hkind => exact .error hkind
    | @ok p q halike =>
      simp only [halike.parameterTypes_eq]
      by_cases hexpected : q.parameterTypes = expected
      · simp only [hexpected, if_true]
        refine .ok ⟨halike.shapes_eq, halike.parameterTypes_eq, fun request => ⟨?_, ?_⟩⟩
        · exact fun scoring => halike.scoreSegments_eq scoring (Path.segments request)
        · exact halike.bindSegments_eq (Path.segments request)
      · simp only [hexpected, if_false]
        exact .error .parameterMismatch

end Pattern

namespace Sample

/-- The pattern of `//Users/{Integer id}/{BigDecimal...}`. -/
def amounts : Pattern :=
  ⟨[.literal "users", .placeholder (.whole .integer) ⟨"{Integer id}", some "id"⟩],
    some ⟨.decimal, "{BigDecimal...}", none⟩⟩

/-- The pattern of `/users/{i32}  n-1/{Decimal ... xs}/`. -/
def reworded : Pattern :=
  ⟨[.literal "users", .placeholder (.whole .integer) ⟨"{i32}  n-1", some "n-1"⟩],
    some ⟨.decimal, "{Decimal ... xs}", some "xs"⟩⟩

end Sample

/-- Other slashes, letter case, blanks and labels, and aliases of two types. -/
theorem Pattern.ofPath_of_alike_sample :
    Path.Alike {} "//Users/{Integer id}/{BigDecimal...}" "/users/{i32}  n-1/{Decimal ... xs}/" ∧
    ofPath {} "//Users/{Integer id}/{BigDecimal...}" Sample.amounts.parameterTypes =
      .ok Sample.amounts ∧
    ofPath {} "/users/{i32}  n-1/{Decimal ... xs}/" Sample.amounts.parameterTypes =
      .ok Sample.reworded ∧
    ∀ request, Sample.amounts.score {} request = Sample.reworded.score {} request ∧
      Sample.amounts.bind request = Sample.reworded.bind request := by
  have hsegments : Path.segments "//Users/{Integer id}/{BigDecimal...}" =
      ["Users", "{Integer id}", "{BigDecimal...}"] := by decide
  have hsegments' : Path.segments "/users/{i32}  n-1/{Decimal ... xs}/" =
      ["users", "{i32}  n-1", "{Decimal ... xs}"] := by decide
  have halike : Path.Alike {} "//Users/{Integer id}/{BigDecimal...}"
      "/users/{i32}  n-1/{Decimal ... xs}/" := by
    rw [Path.Alike, hsegments, hsegments']
    refine .cons (.literal rfl rfl ?_) (.cons (.placeholder rfl rfl rfl ?_)
      (.cons (.placeholder rfl rfl rfl ?_) .nil)) <;> decide
  have hp : ofPath {} "//Users/{Integer id}/{BigDecimal...}" Sample.amounts.parameterTypes =
      .ok Sample.amounts := by decide
  have hq : ofPath {} "/users/{i32}  n-1/{Decimal ... xs}/" Sample.amounts.parameterTypes =
      .ok Sample.reworded := by decide
  have hrel := ofPath_of_alike halike Sample.amounts.parameterTypes
  rw [hp, hq] at hrel
  cases hrel with
  | ok hsame =>
    obtain ⟨-, -, hrequest⟩ := hsame
    exact ⟨halike, hp, hq, fun request => ⟨(hrequest request).1 {}, (hrequest request).2⟩⟩

end TypedRouting
