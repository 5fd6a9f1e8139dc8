import TypedRouting.Proofs.Leftmost
import TypedRouting.Proofs.PatternLayout

/-!
# Declared paths that are refused

A segment of a declared path has a flaw if it is an array that another segment follows, or a
placeholder that names no type. `Refusal` says with which error a declared path is refused: it has
too many segments, or a first flaw, or it declares other parameters than expected, each only if
nothing before it applies.

* `Declared.ofText_eq_error_iff`: a segment is refused just where it has a flaw.
* `Pattern.ofSegments_eq_error_iff`: a row of segments is refused for its first flaw.
* `Pattern.ofPath_verdict`: a declared path is refused with the errors of `Refusal` and no other,
  and it makes a pattern just where none applies.
-/

namespace TypedRouting

variable {options : DeclarationOptions} {path text : String} {texts rest : List String}
  {index i : Nat} {last : Bool} {e : PatternError}

/-! ### Flaws -/

/-- What is wrong with segment number `index` of `path`. In the wrong place, an array is refused for
the place and not for its type. -/
inductive Flaw (path : String) (index : Nat) (last : Bool) (text : String) : PatternError → Prop
  | arrayNotLast {p : Placeholder} (htext : Placeholder.ofText? text = some p)
      (harray : p.array = true) (hplace : last = false) :
      Flaw path index last text (.arrayNotLast path text index)
  | unknownParameterType {p : Placeholder} (htext : Placeholder.ofText? text = some p)
      (hplace : p.array = true → last = true) (htype : ScalarType.ofToken? p.token = none) :
      Flaw path index last text (.unknownParameterType text p.token)

/-- What is wrong with the segment at place `i`. Places count from `index`. -/
def FlawAt (path : String) (index : Nat) (texts : List String) (i : Nat) (e : PatternError) : Prop :=
  ∃ text, texts[i]? = some text ∧ Flaw path (index + i) (i + 1 == texts.length) text e

theorem Declared.ofText_eq_error_iff :
    Declared.ofText options path index last text = .error e ↔ Flaw path index last text e := by
  constructor
  · intro h
    unfold Declared.ofText at h
    split at h
    · cases h
    · next p htext =>
      split at h
      · next hplace =>
        obtain ⟨harray, hlast⟩ : p.array = true ∧ last = false := by simpa using hplace
        cases h
        exact .arrayNotLast htext harray hlast
      · next hplace =>
        split at h
        · next htype =>
          cases h
          exact .unknownParameterType htext (by simpa using hplace) htype
        · cases h
  · rintro (⟨htext, harray, hlast⟩ | ⟨htext, hplace, htype⟩)
    · simp [Declared.ofText, htext, harray, hlast]
    · simpa [Declared.ofText, htext, htype] using hplace

/-- A segment that makes a tail is the last. -/
theorem Declared.last_of_ofText {array : Tail}
    (h : Declared.ofText options path index last text = .ok (.tail array)) : last = true := by
  unfold Declared.ofText at h
  split at h
  · cases h
  · next p htext =>
    split at h
    · cases h
    · next hplace =>
      split at h
      · cases h
      · next t htype =>
        have harray : p.array = true := by
          by_contra hscalar
          simp [Declared.ofPlaceholder, hscalar] at h
        simpa [harray] using hplace

theorem Flaw.unique {d : PatternError} (h : Flaw path index last text e)
    (h' : Flaw path index last text d) : d = e := by
  have hread : Declared.ofText {} path index last text = .error e :=
    Declared.ofText_eq_error_iff.2 h
  rw [Declared.ofText_eq_error_iff.2 h'] at hread
  exact Except.error.inj hread

/-! ### Rows of segments -/

theorem flawAt_zero_iff :
    FlawAt path index (text :: rest) 0 e ↔ Flaw path index rest.isEmpty text e := by
  have hlast : (0 + 1 == (text :: rest).length) = rest.isEmpty := by cases rest <;> rfl
  unfold FlawAt
  rw [hlast]
  simp

theorem flawAt_succ_iff :
    FlawAt path index (text :: rest) (i + 1) e ↔ FlawAt path (index + 1) rest i e := by
  have hplace : index + (i + 1) = index + 1 + i := by omega
  simp [FlawAt, hplace]

/-- The row has a first flaw, and this is its error. -/
def FlawedFirst (path : String) (index : Nat) (texts : List String) (e : PatternError) : Prop :=
  ∃ i, Leftmost (FlawAt path index texts) i e

theorem flawedFirst_of_flaw {d : PatternError} (h : Flaw path index rest.isEmpty text d) :
    FlawedFirst path index (text :: rest) e ↔ e = d := by
  have hfirst : ∀ i, Leftmost (FlawAt path index (text :: rest)) i e ↔ i = 0 ∧ e = d := fun i =>
    Leftmost.iff_of_zero (flawAt_zero_iff.2 h) fun b hb => h.unique (flawAt_zero_iff.1 hb)
  simp [FlawedFirst, hfirst]

theorem flawedFirst_of_no_flaw (h : ∀ d, ¬Flaw path index rest.isEmpty text d) :
    FlawedFirst path index (text :: rest) e ↔ FlawedFirst path (index + 1) rest e := by
  have hfirst : ∀ i, Leftmost (FlawAt path index (text :: rest)) i e ↔
      ∃ j, i = j + 1 ∧ Leftmost (FlawAt path (index + 1) rest) j e := by
    intro i
    rw [Leftmost.iff_of_not_zero fun d hd => h d (flawAt_zero_iff.1 hd)]
    have hrest : (fun j => FlawAt path index (text :: rest) (j + 1)) =
        FlawAt path (index + 1) rest := funext fun j => funext fun d => propext flawAt_succ_iff
    rw [hrest]
  simp [FlawedFirst, hfirst]

namespace Pattern

variable {p : Pattern} {expected : List ParameterType}

/-- A row of segments is refused for its first flaw. -/
theorem ofSegments_eq_error_iff :
    ofSegments options path index texts = .error e ↔ FlawedFirst path index texts e := by
  induction texts generalizing index with
  | nil =>
    refine iff_of_false nofun ?_
    rintro ⟨i, ⟨text, htext, -⟩, -⟩
    cases htext
  | cons text rest ih =>
    rw [ofSegments]
    cases hread : Declared.ofText options path index rest.isEmpty text with
    | error d =>
      rw [flawedFirst_of_flaw (Declared.ofText_eq_error_iff.1 hread), Except.error.injEq, eq_comm]
    | ok part =>
      have hnone : ∀ d, ¬Flaw path index rest.isEmpty text d := by
        intro d hd
        rw [Declared.ofText_eq_error_iff.2 hd] at hread
        cases hread
      rw [flawedFirst_of_no_flaw hnone]
      cases part with
      | segment s => rw [← ih, Outcome.map_eq_error]
      | tail array =>
        obtain rfl : rest = [] := by simpa using Declared.last_of_ofText hread
        rw [← ih]
        simp [ofSegments]

/-- A row of segments makes a pattern just where none has a flaw. -/
theorem exists_ofSegments_iff :
    (∃ p, ofSegments options path index texts = .ok p) ↔ ∀ i e, ¬FlawAt path index texts i e := by
  constructor
  · rintro ⟨p, hp⟩ i e hflaw
    obtain ⟨j, d, hfirst⟩ := Leftmost.exists_of_holds hflaw
    rw [ofSegments_eq_error_iff.2 ⟨j, hfirst⟩] at hp
    cases hp
  · intro hsound
    cases hread : ofSegments options path index texts with
    | ok p => exact ⟨p, rfl⟩
    | error e =>
      obtain ⟨i, hfirst⟩ := ofSegments_eq_error_iff.1 hread
      exact absurd hfirst.holds (hsound i e)

end Pattern

/-! ### Whole paths -/

/-- The placeholders of the path declare parameters of these types, in order. -/
def Path.Declares (path : String) (types : List ParameterType) : Prop :=
  List.Forall₂ Placeholder.Declares ((Path.segments path).filterMap Placeholder.ofText?) types

/-- No segment of the path has a flaw. -/
def Path.Sound (path : String) : Prop :=
  ∀ i e, ¬FlawAt path 0 (Path.segments path) i e

theorem Placeholder.Declares.unique {p : Placeholder} {T U : ParameterType} (hT : p.Declares T)
    (hU : p.Declares U) : T = U := by
  obtain ⟨htype, harray⟩ := hT
  obtain ⟨htype', harray'⟩ := hU
  have helement : T.element = U.element := Option.some.inj (htype.symm.trans htype')
  have hkind : T.isArray = U.isArray := harray.symm.trans harray'
  cases T <;> cases U <;> cases hkind <;> cases helement <;> rfl

theorem Path.Declares.unique {types types' : List ParameterType} (h : Path.Declares path types)
    (h' : Path.Declares path types') : types = types' := by
  unfold Path.Declares at h h'
  generalize (Path.segments path).filterMap Placeholder.ofText? = placeholders at h h'
  induction h generalizing types' with
  | nil => exact (List.forall₂_nil_left_iff.1 h').symm
  | cons hT hrest ih =>
    obtain ⟨U, others, hU, hothers, rfl⟩ := List.forall₂_cons_left_iff.1 h'
    rw [hT.unique hU, ih hothers]

/-- Why a declared path is refused. -/
inductive Refusal (options : DeclarationOptions) (path : String) (expected : List ParameterType) :
    PatternError → Prop
  | tooManySegments (hcount : options.maxSegments < (Path.segments path).length) :
      Refusal options path expected
        (.tooManySegments path (Path.segments path).length options.maxSegments)
  | flaw {e : PatternError} (hcount : (Path.segments path).length ≤ options.maxSegments)
      (hflaw : FlawedFirst path 0 (Path.segments path) e) : Refusal options path expected e
  | parameterMismatch {found : List ParameterType}
      (hcount : (Path.segments path).length ≤ options.maxSegments) (hsound : Path.Sound path)
      (hfound : Path.Declares path found) (hne : found ≠ expected) :
      Refusal options path expected (.parameterMismatch path expected found)

namespace Pattern

variable {p : Pattern} {expected : List ParameterType}

theorem declares_of_ofSegments (h : ofSegments options path 0 (Path.segments path) = .ok p) :
    Path.Declares path p.parameterTypes :=
  declares_of_parts (ofSegments_eq_ok_iff.1 h)

theorem exists_ofPath_iff :
    (∃ p, ofPath options path expected = .ok p) ↔
      (Path.segments path).length ≤ options.maxSegments ∧ Path.Sound path ∧
        Path.Declares path expected := by
  simp only [ofPath_eq_ok]
  constructor
  · rintro ⟨p, hcount, hread, rfl⟩
    exact ⟨hcount, exists_ofSegments_iff.1 ⟨p, hread⟩, declares_of_ofSegments hread⟩
  · rintro ⟨hcount, hsound, hdeclares⟩
    obtain ⟨p, hread⟩ := exists_ofSegments_iff.2 hsound
    exact ⟨p, hcount, hread, (declares_of_ofSegments hread).unique hdeclares⟩

theorem ofPath_eq_error_iff :
    ofPath options path expected = .error e ↔ Refusal options path expected e := by
  constructor
  · intro h
    simp only [ofPath] at h
    split at h
    · next hcount =>
      cases h
      exact .tooManySegments hcount
    · next hcount =>
      rw [Nat.not_lt] at hcount
      split at h
      · next d hread =>
        cases h
        exact .flaw hcount (ofSegments_eq_error_iff.1 hread)
      · next p hread =>
        split at h
        · cases h
        · next hne =>
          cases h
          have hsound := exists_ofSegments_iff.1 ⟨p, hread⟩
          exact .parameterMismatch hcount hsound (declares_of_ofSegments hread) hne
  · rintro (hcount | ⟨hcount, hflaw⟩ | @⟨found, hcount, hsound, hfound, hne⟩)
    · simp [ofPath, hcount]
    · simp [ofPath, Nat.not_lt.2 hcount, ofSegments_eq_error_iff.2 hflaw]
    · obtain ⟨p, hread⟩ : ∃ p, ofSegments options path 0 (Path.segments path) = .ok p :=
        exists_ofSegments_iff.2 hsound
      obtain rfl := (declares_of_ofSegments hread).unique hfound
      simp [ofPath, Nat.not_lt.2 hcount, hread, hne]

/-- **The verdict on a declared path.** It is refused with the errors of `Refusal` and with no other.
It makes a pattern just where it has no more segments than the options allow, no segment of it has a
flaw, and its placeholders declare the expected parameters. -/
theorem ofPath_verdict (options : DeclarationOptions) (path : String)
    (expected : List ParameterType) :
    (∀ e, ofPath options path expected = .error e ↔ Refusal options path expected e) ∧
      ((∃ p, ofPath options path expected = .ok p) ↔
        (Path.segments path).length ≤ options.maxSegments ∧ Path.Sound path ∧
          Path.Declares path expected) :=
  ⟨fun _ => ofPath_eq_error_iff, exists_ofPath_iff⟩

/-- Two flaws: the first counts, and there the place counts before the type. -/
example : ofPath {} "/a/{Nope...}/{Nope}" [] =
    .error (.arrayNotLast "/a/{Nope...}/{Nope}" "{Nope...}" 1) := by
  decide

end Pattern
end TypedRouting
