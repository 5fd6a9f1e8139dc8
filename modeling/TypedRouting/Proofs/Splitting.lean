import TypedRouting.Path

/-!
# Paths taken apart and put together

* `Path.isSegment_of_mem`: the segments of a path are not empty and have no slash in them.
* `Path.segments_append`: a slash between two paths separates their segments.
* `Path.segments_spread`: such texts, in order, with any number of slashes before the first and after
  the last and at least one between any two, are the segments again.
* `Path.segments_undo_joining`: every path is made from its segments in this way.
* `Path.segments_join` and `Path.isNormal_join`: the normal form of a path has one slash before each
  of its segments and no other.
-/

namespace TypedRouting
namespace Path

/-- The text can be a segment of a path. -/
def IsSegment (text : String) : Prop := text ≠ "" ∧ '/' ∉ text.toList

instance (text : String) : Decidable (IsSegment text) :=
  inferInstanceAs (Decidable (text ≠ "" ∧ '/' ∉ text.toList))

/-! ### Pieces -/

theorem pieces_of_not_mem {cs : List Char} (h : '/' ∉ cs) : pieces cs = [cs] := by
  induction cs with
  | nil => rfl
  | cons c cs ih =>
    obtain ⟨hc, hcs⟩ : '/' ≠ c ∧ '/' ∉ cs := by simpa using h
    rw [pieces, if_neg (Ne.symm hc), ih hcs]

theorem not_mem_of_mem_pieces {cs piece : List Char} (h : piece ∈ pieces cs) : '/' ∉ piece := by
  induction cs generalizing piece with
  | nil =>
    obtain rfl : piece = [] := by simpa [pieces] using h
    exact List.not_mem_nil
  | cons c cs ih =>
    rw [pieces] at h
    split at h
    · rcases List.mem_cons.1 h with rfl | h
      · exact List.not_mem_nil
      · exact ih h
    · next hc =>
      cases hcs : pieces cs with
      | nil => exact absurd hcs (pieces_ne_nil cs)
      | cons first others =>
        -- the character joins the first piece
        simp only [hcs, List.mem_cons] at h
        rcases h with rfl | h
        · have hfirst : '/' ∉ first := ih (by simp [hcs])
          simpa using And.intro (Ne.symm hc) hfirst
        · exact ih (by simp [hcs, h])

/-- The pieces hold all characters but the slashes, in order. -/
theorem flatten_pieces (cs : List Char) : (pieces cs).flatten = cs.filter (· ≠ '/') := by
  induction cs with
  | nil => rfl
  | cons c cs ih =>
    rw [pieces]
    split
    · next hc => simpa [hc] using ih
    · next hc =>
      cases hcs : pieces cs with
      | nil => exact absurd hcs (pieces_ne_nil cs)
      | cons first others =>
        rw [hcs] at ih
        simpa [hc] using ih

/-! ### Segments -/

theorem isSegment_of_mem {path text : String} (h : text ∈ segments path) : IsSegment text := by
  obtain ⟨piece, hpiece, rfl⟩ := List.mem_map.1 h
  obtain ⟨hmem, hne⟩ := List.mem_filter.1 hpiece
  refine ⟨?_, by simpa using not_mem_of_mem_pieces hmem⟩
  intro hempty
  obtain rfl : piece = [] := by simpa using congrArg String.toList hempty
  simp at hne

theorem mem_toList_of_mem_segments {path text : String} (h : text ∈ segments path) {c : Char}
    (hc : c ∈ text.toList) : c ∈ path.toList := by
  obtain ⟨piece, hpiece, rfl⟩ := List.mem_map.1 h
  have hflat : c ∈ (pieces path.toList).flatten :=
    List.mem_flatten.2 ⟨piece, (List.mem_filter.1 hpiece).1, by simpa using hc⟩
  rw [flatten_pieces] at hflat
  exact (List.mem_filter.1 hflat).1

@[simp]
theorem segments_empty : segments "" = [] := rfl

theorem segments_of_isSegment {text : String} (h : IsSegment text) : segments text = [text] := by
  have hne : text.toList ≠ [] := fun hnil => h.1 (String.toList_eq_nil_iff.1 hnil)
  simp [segments, pieces_of_not_mem h.2, hne]

theorem segments_append (p q : String) : segments (p ++ "/" ++ q) = segments p ++ segments q := by
  have hchars : (p ++ "/" ++ q).toList = p.toList ++ '/' :: q.toList := by simp
  rw [segments, hchars, pieces_append_slash, List.filter_append, List.map_append]
  rfl

theorem segments_intercalate {texts : List String} (h : ∀ text ∈ texts, IsSegment text) :
    segments ("/".intercalate texts) = texts := by
  induction texts with
  | nil => simp
  | cons text texts ih =>
    have hhead := segments_of_isSegment (h text (by simp))
    cases texts with
    | nil => simpa using hhead
    | cons next rest =>
      have hrest := ih fun t ht => h t (List.mem_cons_of_mem _ ht)
      rw [String.intercalate_cons_cons, segments_append, hhead, hrest]
      rfl

/-! ### Paths with any number of slashes -/

/-- The characters of a path of these parts: each text behind its number of slashes, and `trail`
slashes at the end. -/
def spread (parts : List (Nat × String)) (trail : Nat) : List Char :=
  parts.flatMap (fun part => List.replicate part.1 '/' ++ part.2.toList) ++
    List.replicate trail '/'

/-- Each part but the first has a slash before it. -/
def Separated (parts : List (Nat × String)) : Prop := ∀ part ∈ parts.tail, 0 < part.1

section Spread

variable {parts : List (Nat × String)} {gap trail : Nat} {text : String} {cs ds : List Char}

theorem spread_cons :
    spread ((gap, text) :: parts) trail =
      List.replicate gap '/' ++ (text.toList ++ spread parts trail) := by
  simp [spread]

theorem spread_single (c : Char) :
    spread ((0, String.ofList [c]) :: parts) trail = c :: spread parts trail := by
  rw [spread_cons, String.toList_ofList]
  rfl

theorem Separated.tail {part : Nat × String} (h : Separated (part :: parts)) :
    Separated parts := fun next hnext => h next (List.mem_of_mem_tail hnext)

theorem segments_ofList_slash :
    segments (String.ofList (cs ++ '/' :: ds)) =
      segments (String.ofList cs) ++ segments (String.ofList ds) := by
  have hjoin : String.ofList (cs ++ '/' :: ds) = String.ofList cs ++ "/" ++ String.ofList ds := by
    simp [← String.toList_inj]
  rw [hjoin, segments_append]

theorem segments_replicate_append (n : Nat) :
    segments (String.ofList (List.replicate n '/' ++ cs)) = segments (String.ofList cs) := by
  induction n with
  | zero => rfl
  | succ n ih =>
    rw [List.replicate_succ, List.cons_append, ← List.nil_append ('/' :: _), segments_ofList_slash,
      ih]
    rfl

/-- A text ends where the characters behind it do, or start with a slash. -/
theorem segments_toList_append (htext : IsSegment text) (h : cs = [] ∨ ∃ ds, cs = '/' :: ds) :
    segments (String.ofList (text.toList ++ cs)) = text :: segments (String.ofList cs) := by
  have hown : segments (String.ofList text.toList) = [text] := by
    rw [String.ofList_toList, segments_of_isSegment htext]
  rcases h with rfl | ⟨ds, rfl⟩
  · rw [List.append_nil, hown]
    rfl
  · have hslash : segments (String.ofList ('/' :: ds)) = segments (String.ofList ds) :=
      segments_replicate_append 1
    rw [segments_ofList_slash, hown, hslash]
    rfl

theorem spread_starts (h : Separated ((gap, text) :: parts)) :
    spread parts trail = [] ∨ ∃ cs, spread parts trail = '/' :: cs := by
  cases parts with
  | nil =>
    cases trail with
    | zero => exact .inl rfl
    | succ trail => exact .inr ⟨_, rfl⟩
  | cons part parts =>
    obtain ⟨next, own⟩ := part
    have hnext : 0 < next := h (next, own) List.mem_cons_self
    obtain ⟨n, rfl⟩ := Nat.exists_eq_add_of_lt hnext
    refine .inr ⟨List.replicate n '/' ++ (own.toList ++ spread parts trail), ?_⟩
    rw [spread_cons, Nat.zero_add, List.replicate_succ]
    rfl

/-- What is written from texts has them as its segments. -/
theorem segments_spread (htexts : ∀ part ∈ parts, IsSegment part.2) (h : Separated parts) :
    segments (String.ofList (spread parts trail)) = parts.map Prod.snd := by
  induction parts with
  | nil =>
    have hslashes := @segments_replicate_append [] trail
    rw [List.append_nil] at hslashes
    exact hslashes
  | cons part parts ih =>
    obtain ⟨gap, text⟩ := part
    obtain ⟨htext, hrest⟩ := List.forall_mem_cons.1 htexts
    rw [spread_cons, segments_replicate_append, segments_toList_append htext (spread_starts h),
      ih hrest h.tail]
    rfl

theorem isSegment_ofList_cons {c : Char} (hc : c ≠ '/') (hcs : '/' ∉ cs) :
    IsSegment (String.ofList (c :: cs)) := by
  refine ⟨fun hempty => ?_, ?_⟩
  · have hnil := congrArg String.toList hempty
    simp at hnil
  · rw [String.toList_ofList, List.mem_cons, not_or]
    exact ⟨Ne.symm hc, hcs⟩

/-- Every text is written from parts. -/
theorem exists_spread (cs : List Char) :
    ∃ parts trail, cs = spread parts trail ∧ Separated parts ∧
      ∀ part ∈ parts, IsSegment part.2 := by
  induction cs with
  | nil => exact ⟨[], 0, rfl, by simp [Separated], by simp⟩
  | cons c cs ih =>
    obtain ⟨parts, trail, rfl, hparts, htexts⟩ := ih
    by_cases hc : c = '/'
    · -- one slash more before the first text, or at the end where there is none
      subst hc
      cases parts with
      | nil => exact ⟨[], trail + 1, by simp [spread, List.replicate_succ], hparts, htexts⟩
      | cons part parts =>
        obtain ⟨gap, text⟩ := part
        obtain ⟨htext, hrest⟩ := List.forall_mem_cons.1 htexts
        refine ⟨(gap + 1, text) :: parts, trail, ?_, hparts, List.forall_mem_cons.2 ⟨htext, hrest⟩⟩
        rw [spread_cons, spread_cons, List.replicate_succ]
        rfl
    · have hown : IsSegment (String.ofList [c]) := isSegment_ofList_cons hc List.not_mem_nil
      cases parts with
      | nil =>
        exact ⟨[(0, String.ofList [c])], trail, (spread_single c).symm, by simp [Separated],
          by simpa using hown⟩
      | cons part parts =>
        obtain ⟨gap, text⟩ := part
        obtain ⟨htext, hrest⟩ := List.forall_mem_cons.1 htexts
        cases gap with
        | zero =>
          -- the character joins the first text
          refine ⟨(0, String.ofList (c :: text.toList)) :: parts, trail, ?_, hparts, ?_⟩
          · rw [spread_cons, spread_cons, String.toList_ofList]
            rfl
          · exact List.forall_mem_cons.2 ⟨isSegment_ofList_cons hc htext.2, hrest⟩
        | succ gap =>
          refine ⟨(0, String.ofList [c]) :: (gap + 1, text) :: parts, trail,
            (spread_single c).symm, ?_, ?_⟩
          · exact List.forall_mem_cons.2 ⟨Nat.succ_pos gap, hparts⟩
          · exact List.forall_mem_cons.2 ⟨hown, htexts⟩

end Spread

/-- **Splitting undoes joining.** A path has given segments just where these are texts without a
slash, none of them empty, and the path has them in order, with any number of slashes before the
first and after the last and at least one between any two. A slash between two paths separates their
segments. -/
theorem segments_undo_joining :
    (∀ (path : String) (texts : List String),
      segments path = texts ↔
        (∀ text ∈ texts, text ≠ "" ∧ '/' ∉ text.toList) ∧
          ∃ parts trail, parts.map Prod.snd = texts ∧ Separated parts ∧
            path = String.ofList (spread parts trail)) ∧
    ∀ p q : String, segments (p ++ "/" ++ q) = segments p ++ segments q := by
  refine ⟨fun path texts => ⟨?_, ?_⟩, segments_append⟩
  · rintro rfl
    refine ⟨fun text htext => isSegment_of_mem htext, ?_⟩
    obtain ⟨parts, trail, hpath, hparts, htexts⟩ := exists_spread path.toList
    have hown : path = String.ofList (spread parts trail) := by
      rw [← hpath, String.ofList_toList]
    refine ⟨parts, trail, ?_, hparts, hown⟩
    rw [hown, segments_spread htexts hparts]
  · rintro ⟨htexts, parts, trail, rfl, hparts, rfl⟩
    exact segments_spread (List.forall_mem_map.1 htexts) hparts

/-! ### The normal form -/

/-- The normal form of a list of segments has these segments. -/
theorem segments_join {texts : List String} (h : ∀ text ∈ texts, IsSegment text) :
    segments (join texts) = texts := by
  cases texts with
  | nil => rfl
  | cons text texts =>
    have hjoin : join (text :: texts) =
        String.ofList (spread ((text :: texts).map fun own => (1, own)) 0) := by
      simp [join, spread, List.flatMap_map]
    have hparts : Separated ((text :: texts).map fun own => (1, own)) := by
      simp [Separated]
    rw [hjoin, segments_spread (List.forall_mem_map.2 h) hparts, List.map_map]
    exact List.map_id _

/-- The text starts with a slash, has no empty segment in it, and ends with a slash only where that
is all of it. -/
structure IsNormal (path : String) : Prop where
  starts : path.toList.head? = some '/'
  no_empty : ¬['/', '/'] <:+: path.toList
  ends : path.toList.getLast? = some '/' → path = "/"

theorem not_infix_append {cs rest : List Char} (hcs : '/' ∉ cs) (hrest : ¬['/', '/'] <:+: rest) :
    ¬['/', '/'] <:+: cs ++ rest := by
  induction cs with
  | nil => exact hrest
  | cons c cs ih =>
    obtain ⟨hc, hcs⟩ : '/' ≠ c ∧ '/' ∉ cs := by simpa using hcs
    rw [List.cons_append, List.infix_cons_iff]
    rintro (hstart | hinfix)
    · exact hc (List.cons_prefix_cons.1 hstart).1
    · exact ih hcs hinfix

theorem no_empty_flatMap {texts : List String} (h : ∀ text ∈ texts, IsSegment text) :
    ¬['/', '/'] <:+: texts.flatMap ('/' :: ·.toList) := by
  induction texts with
  | nil => simp
  | cons text texts ih =>
    obtain ⟨⟨hne, hslash⟩, htexts⟩ := List.forall_mem_cons.1 h
    rw [List.flatMap_cons, List.cons_append, List.infix_cons_iff]
    rintro (hstart | hinfix)
    · obtain ⟨c, cs, hcs⟩ := List.exists_cons_of_ne_nil (mt String.toList_eq_nil_iff.1 hne)
      rw [hcs, List.cons_append] at hstart
      obtain rfl : '/' = c := (List.cons_prefix_cons.1 (List.cons_prefix_cons.1 hstart).2).1
      simp [hcs] at hslash
    · exact not_infix_append hslash (ih htexts) hinfix

theorem getLast?_flatMap_ne {texts : List String} (h : ∀ text ∈ texts, IsSegment text) :
    (texts.flatMap ('/' :: ·.toList)).getLast? ≠ some '/' := by
  induction texts with
  | nil => simp
  | cons text texts ih =>
    obtain ⟨⟨hne, hslash⟩, htexts⟩ := List.forall_mem_cons.1 h
    obtain ⟨c, hc⟩ : ∃ c, text.toList.getLast? = some c :=
      Option.isSome_iff_exists.1 (List.getLast?_isSome.2 (mt String.toList_eq_nil_iff.1 hne))
    rw [List.flatMap_cons, List.getLast?_append]
    intro hlast
    rcases Option.or_eq_some_iff.1 hlast with hrest | ⟨-, hown⟩
    · exact ih htexts hrest
    · rw [List.getLast?_cons, hc] at hown
      obtain rfl : c = '/' := by simpa using hown
      exact hslash (List.mem_of_getLast? hc)

theorem isNormal_join {texts : List String} (h : ∀ text ∈ texts, IsSegment text) :
    IsNormal (join texts) := by
  cases texts with
  | nil => exact ⟨rfl, by decide, fun _ => rfl⟩
  | cons text texts =>
    have hjoin : (join (text :: texts)).toList = (text :: texts).flatMap ('/' :: ·.toList) := by
      simp [join]
    refine ⟨by simp [hjoin], ?_, ?_⟩
    · rw [hjoin]
      exact no_empty_flatMap h
    · rw [hjoin]
      exact fun hlast => absurd hlast (getLast?_flatMap_ne h)

end Path
end TypedRouting
