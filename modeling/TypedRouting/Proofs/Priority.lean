import TypedRouting.Proofs.Declaration
import TypedRouting.Proofs.ScoreBound
import TypedRouting.Proofs.SearchWidth
import TypedRouting.Proofs.Selection

/-!
# Requests that spell a declared path

The declared path of a route without placeholders is a request too. It has the highest score that
a request of its length can have, and so have just the patterns that go on to an array after the
same literals (`Pattern.Continues`).

* `Pattern.scoreSegments_ofLiterals_iff`: these are the patterns with that score.
* `Pattern.counts_ofLiterals_iff`: 32 bits hold that score for at most 1431655764 segments.
* `Router.find_literal_path`: up to there, one of them is found, the first or the last by the
  tie-break. So a placeholder never takes a segment of the request, but the route found may end in
  an array that is left empty (`Router.literal_path_captured`).
-/

namespace TypedRouting

variable {ρ ω : Type}

/-! ### Patterns that repeat a row of literals -/

/-- The pattern `q` starts with the fixed segments of `p` and ends there, with or without an array.
In the lenient mode there may be further segments before the array. -/
def Pattern.Continues (mode : ScoringMode) (p q : Pattern) : Prop :=
  q.fixed = p.fixed ∨ mode = .lenient ∧ q.hasArray = true ∧ p.fixed <+: q.fixed

theorem Segment.repeats_iff {options : DeclarationOptions} {s : Segment} {value : String} :
    s.Repeats options.caseSensitive value ↔ s = .literal (options.literal value) := by
  unfold Repeats
  constructor
  · rintro ⟨text, rfl, hmatch⟩
    rw [literalMatches_iff.1 hmatch]
  · rintro rfl
    exact ⟨_, rfl, literalMatches_iff.2 rfl⟩

/-- A row of segments repeats all texts just where it starts with their literals. -/
theorem repeats_zip_iff {options : DeclarationOptions} {ss : List Segment} {texts : List String} :
    (texts.length ≤ ss.length ∧ ∀ x ∈ ss.zip texts, x.1.Repeats options.caseSensitive x.2) ↔
      (Pattern.ofLiterals options texts).fixed <+: ss := by
  induction texts generalizing ss with
  | nil => simp [Pattern.ofLiterals]
  | cons text texts ih =>
    cases ss with
    | nil => simp [Pattern.ofLiterals]
    | cons s ss =>
      have hcons : (Pattern.ofLiterals options (text :: texts)).fixed =
          .literal (options.literal text) :: (Pattern.ofLiterals options texts).fixed := rfl
      rw [hcons, List.cons_prefix_cons, ← ih, List.zip_cons_cons, List.forall_mem_cons,
        Segment.repeats_iff]
      simp only [List.length_cons, Nat.add_le_add_iff_right]
      tauto

namespace Pattern

theorem admits_of_length_eq {p : Pattern} {mode : ScoringMode} {count : Nat}
    (h : count = p.fixed.length) : p.admits mode count = true := by
  unfold admits
  split <;> simp [h]

/-- The patterns that score highest for a row of literals are those that continue it. -/
theorem scoreSegments_ofLiterals_iff {options : RouterOptions} {texts : List String}
    {q : Pattern} :
    q.scoreSegments options.scoring texts = 1 + 3 * texts.length ↔
      (ofLiterals options.declaration texts).Continues options.scoringMode q := by
  have hlen : (ofLiterals options.declaration texts).fixed.length = texts.length := by
    simp [ofLiterals]
  have hcase : options.scoring.caseSensitive = options.declaration.caseSensitive := rfl
  rw [scoreSegments_eq_top_iff, hcase, repeats_zip_iff]
  constructor
  · rintro ⟨hadmits, hstart⟩
    have hle := hstart.length_le
    cases htail : q.tail with
    | none =>
      have heq : texts.length = q.fixed.length := by simpa [admits, htail] using hadmits
      exact .inl (hstart.eq_of_length (hlen.trans heq)).symm
    | some tail =>
      cases hmode : options.scoringMode with
      | lenient => exact .inr ⟨rfl, by simp [hasArray, htail], hstart⟩
      | strict =>
        have hge : q.fixed.length ≤ texts.length := by
          simpa [admits, htail, RouterOptions.scoring, hmode] using hadmits
        exact .inl (hstart.eq_of_length (by omega)).symm
  · rintro (hfixed | ⟨hmode, harray, hstart⟩)
    · exact ⟨admits_of_length_eq (by rw [hfixed, hlen]), hfixed ▸ List.prefix_rfl⟩
    · obtain ⟨tail, htail⟩ := Option.isSome_iff_exists.1 harray
      exact ⟨by simp [admits, htail, RouterOptions.scoring, hmode], hstart⟩

/-- A row of literals has the highest score for its own texts, and 32 bits hold it up to this
length and no further. -/
theorem counts_ofLiterals_iff {options : RouterOptions} {texts : List String} :
    Counts ((ofLiterals options.declaration texts).score32 options.scoring texts)
        (1 + 3 * texts.length) ↔
      texts.length ≤ 1431655764 := by
  constructor
  · rintro ⟨total, -, htotal⟩
    have hwidth := total.toNat_lt
    omega
  · intro hlen
    have htop : (ofLiterals options.declaration texts).scoreSegments options.scoring texts =
        1 + 3 * texts.length := scoreSegments_ofLiterals_iff.2 (.inl rfl)
    rw [← htop]
    exact counts_score32 (by omega)

theorem Continues.shapes_eq {mode : ScoringMode} {p q : Pattern} (h : p.Continues mode q)
    (hp : p.tail = none) (hq : q.hasArray = false) : q.shapes = p.shapes := by
  have htail : q.tail = none := by simpa [hasArray] using hq
  rcases h with hfixed | ⟨-, harray, -⟩
  · have hqp : q = p := by
      cases p
      cases q
      simp_all
    rw [hqp]
  · rw [hq] at harray
    cases harray

end Pattern

/-! ### The route that is found -/

namespace Snapshot

variable {s : Snapshot ρ ω} {entries : List (String × String)} {i : Nat} {path name : String}

/-- The route of a declared path without placeholders. -/
theorem Lists.exists_literal_route (h : s.Lists entries) (he : entries[i]? = some (path, name))
    (hpath : Path.IsLiteral path) :
    ∃ own, s.routes[i]? = some own ∧ (Path.segments path).length ≤ s.options.maxSegments ∧
      own.pattern = Pattern.ofLiterals s.options.declaration (Path.segments path) := by
  obtain ⟨own, hown, op, -, -, hof⟩ := h.exists_route he
  obtain ⟨p, hp, rfl⟩ := Route.ofPath_eq_ok.1 hof
  exact ⟨_, hown, (Pattern.ofPath_eq_ok.1 hp).1, Pattern.ofPath_eq_of_isLiteral hp hpath⟩

end Snapshot

/-- **Literal paths.** The declared path of a route without placeholders finds a pattern that
continues that route, the first or the last by the tie-break; it has other segments than the route
only if it ends in an array. The path has no more segments than 32 bits can count the scores of, and
the search that counts in 32 bits finds the same. -/
theorem Router.find_literal_path {operations : OperationTable ρ ω} {options : Option RouterOptions}
    {r : Router ρ ω} (hr : ofOperations operations options = .ok r) (history : List Command)
    {i : Nat} {path name : String} (he : (r.accepted history)[i]? = some (path, name))
    (hpath : Path.IsLiteral path) (hcount : (Path.segments path).length ≤ 1431655764) :
    let s := (r.run history).close.1
    ∃ own m won, s.routes[i]? = some own ∧ s.find path = some m ∧ s.find32 path = .ok (some m) ∧
      s.routes[m.id]? = some won ∧
      own.pattern.Continues s.options.scoringMode won.pattern ∧
      (∀ j other, s.routes[j]? = some other →
        own.pattern.Continues s.options.scoringMode other.pattern →
        s.options.tieBreak.Leads m.id j) ∧
      (won.pattern.shapes = own.pattern.shapes ∨ won.pattern.hasArray = true ∧ m.id ≠ i) := by
  intro s
  obtain ⟨-, -, hlists⟩ : _ ∧ _ ∧ s.Lists _ := run_lists hr history
  obtain ⟨own, hown, hlen, hpattern⟩ := hlists.exists_literal_route he hpath
  have hdecides := hlists.decides_find path
  have hfind32 : s.find32 path = .ok (s.find path) := Snapshot.find32_eq (.inr hcount)
  have hcontinues : ∀ other : Route,
      other.pattern.score s.options.scoring path = 1 + 3 * (Path.segments path).length ↔
        own.pattern.Continues s.options.scoringMode other.pattern := by
    intro other
    rw [hpattern]
    exact Pattern.scoreSegments_ofLiterals_iff
  have hmem : ∀ {j other}, s.routes[j]? = some other →
      ⟨j, other.pattern.score s.options.scoring path⟩ ∈ s.scoreAll path := by
    intro j other hother
    exact hlists.mem_scoreAll_iff.2 ⟨other, hother, by rw [if_pos hlen]⟩
  have hself := (hcontinues own).2 (.inl rfl)
  have hle : ∀ other ∈ s.scoreAll path,
      other.score ≤ own.pattern.score s.options.scoring path := by
    intro other hother
    obtain ⟨route, -, hscore⟩ := hlists.mem_scoreAll_iff.1 hother
    rw [if_pos hlen] at hscore
    rw [hscore, hself]
    exact Pattern.scoreSegments_le _ _ _
  have hpos : 0 < own.pattern.score s.options.scoring path := by omega
  obtain ⟨m, hfind, hm, hsame⟩ := hdecides.exists_of_top hpos (hmem hown) hle
  have htop : m.score = 1 + 3 * (Path.segments path).length := hsame.trans hself
  obtain ⟨won, hwon, hscore, -⟩ := hlists.route_of_find hfind
  have hwonTop := (hcontinues won).1 (hscore.trans htop)
  refine ⟨own, m, won, hown, hfind, hfind ▸ hfind32, hwon, hwonTop, ?_, ?_⟩
  · intro j other hother hcont
    exact hm.leads _ (hmem hother) (((hcontinues other).2 hcont).trans htop.symm)
  · have htail : own.pattern.tail = none := by rw [hpattern]; rfl
    cases harray : won.pattern.hasArray with
    | false => exact .inl (hwonTop.shapes_eq htail harray)
    | true =>
      refine .inr ⟨rfl, ?_⟩
      rintro rfl
      rw [hown, Option.some.injEq] at hwon
      rw [← hwon, Pattern.hasArray, htail] at harray
      cases harray

/-- The array comes first and is left empty: it is found for `/a`, and not the path itself. -/
theorem Router.find_literal_path_sample :
    let s := ((Sample.opened .lenient).run Sample.history).close.1
    Path.IsLiteral "/a" ∧ (Path.segments "/a").length ≤ 1431655764 ∧
      ∃ own m won, s.routes[1]? = some own ∧ s.find "/a" = some m ∧
        s.find32 "/a" = .ok (some m) ∧ s.routes[m.id]? = some won ∧
        own.pattern.Continues .lenient won.pattern ∧ m = ⟨0, 4⟩ ∧ won.pattern.hasArray = true := by
  intro s
  have hpath : Path.IsLiteral "/a" := by decide
  have hentry : ((Sample.opened .lenient).accepted Sample.history)[1]? = some ("/a", "home") := by
    decide
  have hcount : (Path.segments "/a").length ≤ 1431655764 := by decide
  obtain ⟨own, m, won, hown, hfind, hfind32, hwon, hcontinues, -, -⟩ :=
    Router.find_literal_path (Sample.ofOperations_opened .lenient) Sample.history hentry hpath
      hcount
  have hm : s.find "/a" = some ⟨0, 4⟩ := by decide
  obtain rfl : m = ⟨0, 4⟩ := Option.some.inj (hfind.symm.trans hm)
  have harray : (s.routes[0]?.map fun route => route.pattern.hasArray) = some true := by decide
  refine ⟨hpath, hcount, own, _, won, hown, hfind, hfind32, hwon, hcontinues, rfl, ?_⟩
  rw [hwon] at harray
  exact Option.some.inj harray

/-- A declared path without placeholders need not find its own segments. -/
theorem Router.literal_path_captured :
    ¬ ∀ (operations : OperationTable Unit Nat) (options : Option RouterOptions)
      (r : Router Unit Nat) (history : List Command) (i : Nat) (path name : String),
      ofOperations operations options = .ok r →
      (r.accepted history)[i]? = some (path, name) → Path.IsLiteral path →
      let s := (r.run history).close.1
      ∃ own m won, s.routes[i]? = some own ∧ s.find path = some m ∧
        s.routes[m.id]? = some won ∧ won.pattern.shapes = own.pattern.shapes := by
  intro h
  obtain ⟨own, m, won, hown, hfind, hwon, hshapes⟩ :=
    h Sample.table _ (Sample.opened .lenient) Sample.history 1 "/a" "home"
      (Sample.ofOperations_opened .lenient) (by decide) (by decide)
  have hm : ((Sample.opened .lenient).run Sample.history).close.1.find "/a" = some ⟨0, 4⟩ := by
    decide
  obtain rfl : m = ⟨0, 4⟩ := Option.some.inj (hfind.symm.trans hm)
  have hdiffer : (((Sample.opened .lenient).run Sample.history).close.1.routes[0]?.map
      fun route => route.pattern.shapes) ≠
      ((Sample.opened .lenient).run Sample.history).close.1.routes[1]?.map
        fun route => route.pattern.shapes := by decide
  rw [hwon, hown, Option.map_some, Option.map_some, hshapes] at hdiffer
  exact hdiffer rfl

end TypedRouting
