import TypedRouting.Proofs.Offsets
import TypedRouting.Proofs.Outcome
import TypedRouting.Proofs.PlaceholderCase
import TypedRouting.Proofs.Splitting

/-!
# Paths and placeholders read by offset

A path is cut at the offsets of its slashes, and a segment is read by a scanner that goes on from
offset to offset. Both readers take the bytes as they come and cut with `Text.slice`.

* `Path.segmentsByOffset_eq`: the cuts of a path are its segments.
* `Placeholder.ofTextByOffset_eq`: the scanner finds the placeholder of a segment.

No cut fails, on whatever text. Each part of the scanner has a lemma that names the characters
before which it starts.
-/

namespace TypedRouting

namespace Path

open Text

/-! ### Paths -/

/-- The offsets of the slashes in a path. -/
def slashes (path : String) : List Nat := (byteChars path).findIdxs (· == '/')

/-- Cuts a path from an offset on before each of the slashes that are left, and at its end. -/
def cutAt (path : String) (start : Nat) : List Nat → Except OffsetFault (List String)
  | [] =>
    if start < path.utf8ByteSize then do
      let last ← slice path start path.utf8ByteSize
      return [last]
    else return []
  | slash :: slashes =>
    if start < slash then do
      let segment ← slice path start slash
      let segments ← cutAt path (slash + 1) slashes
      return segment :: segments
    else cutAt path (slash + 1) slashes

/-- The segments of a path, cut at the offsets of its slashes. -/
def segmentsByOffset (path : String) : Except OffsetFault (List String) :=
  cutAt path 0 (slashes path)

variable {path : String} {start : Nat} {run cs : List Char}

/-- A text without a slash is one segment, if there is anything in it. -/
theorem segments_of_not_mem (h : '/' ∉ run) :
    segments (String.ofList run) = if run = [] then [] else [String.ofList run] := by
  rw [segments, String.toList_ofList, pieces_of_not_mem h]
  cases run <;> rfl

theorem findIdxs_slash (cs : List Char) (start : Nat) :
    (encode ('/' :: cs)).findIdxs (· == '/') start =
      start :: (encode cs).findIdxs (· == '/') (start + 1) := by
  rw [encode_cons_of_ascii (by decide), List.findIdxs_cons]
  rfl

theorem findIdxs_of_ne {c : Char} (hc : c ≠ '/') (cs : List Char) (start : Nat) :
    (encode (c :: cs)).findIdxs (· == '/') start =
      (encode cs).findIdxs (· == '/') (start + (encode [c]).length) := by
  have hnone : (encode [c]).findIdxs (· == '/') start = [] :=
    List.findIdxs_eq_nil_iff.2
      (not_of_mem_encode (asciiOnly_beq (by decide)) (beq_false_of_ne hc))
  rw [encode_cons, List.findIdxs_append, hnone, List.nil_append]

/-- The reader has come to `cs` and has not yet cut off `run`, which has no slash in it. -/
theorem cutAt_eq (h : At path start (run ++ cs)) (hrun : '/' ∉ run) :
    cutAt path start ((encode cs).findIdxs (· == '/') (start + (encode run).length)) =
      .ok (segments (String.ofList (run ++ cs))) := by
  induction cs generalizing start run with
  | nil =>
    rw [List.append_nil] at h ⊢
    rw [segments_of_not_mem hrun]
    show (if start < path.utf8ByteSize then _ else _) = _
    by_cases hnil : run = []
    · rw [if_neg (mt h.lt_size_iff.1 (not_not.2 hnil)), if_pos hnil]
      rfl
    · rw [if_pos (h.lt_size_iff.2 hnil), if_neg hnil, h.slice_size]
      rfl
  | cons c cs ih =>
    by_cases hc : c = '/'
    · subst hc
      have hrest : At path (start + (encode run).length + 1) cs :=
        h.skip.skip_of_ascii (by decide)
      have hcut := @ih _ [] hrest List.not_mem_nil
      have hlt : start < start + (encode run).length ↔ run ≠ [] := by
        rw [Nat.lt_add_right_iff_pos, length_encode_pos_iff]
      rw [findIdxs_slash, segments_ofList_slash, segments_of_not_mem hrun, cutAt]
      by_cases hnil : run = []
      · rw [if_neg (mt hlt.1 (not_not.2 hnil)), if_pos hnil]
        exact hcut
      · rw [if_pos (hlt.2 hnil), if_neg hnil, h.slice_eq, Outcome.ok_bind]
        exact congrArg (· >>= fun segments => .ok (String.ofList run :: segments)) hcut
    · have hrun' : '/' ∉ run ++ [c] := by
        simpa using And.intro hrun (Ne.symm hc)
      have hcut := @ih _ (run ++ [c]) (by rwa [List.append_assoc]) hrun'
      rw [encode_append, List.length_append, ← Nat.add_assoc, List.append_assoc] at hcut
      rw [findIdxs_of_ne hc]
      exact hcut

theorem segmentsByOffset_eq (path : String) : segmentsByOffset path = .ok (segments path) := by
  have hcut := @cutAt_eq path 0 [] path.toList (At.start path) List.not_mem_nil
  rw [List.nil_append, String.ofList_toList, ← byteChars_eq] at hcut
  exact hcut

end Path

namespace Placeholder

open Text

/-! ### The scanner of a segment -/

/-- Takes off a character, and gives the offset behind it. -/
def eat (c : Char) (text : String) (offset : Nat) : Option Nat :=
  if (byteChars text)[offset]? = some c then some (offset + 1) else none

/-- Takes off three dots. -/
def eatDots (text : String) (offset : Nat) : Except OffsetFault (Option Nat) := do
  let bytes ← suffix text offset
  return if ['.', '.', '.'] <+: bytes then some (offset + 3) else none

/-- Takes off the bytes that pass the test, and gives them with the offset behind them. -/
def take (test : Char → Bool) (text : String) (offset : Nat) :
    Except OffsetFault (String × Nat) := do
  let stop := offset + (((byteChars text).drop offset).takeWhile test).length
  let run ← slice text offset stop
  return (run, stop)

def takeBlanks : String → Nat → Except OffsetFault (String × Nat) := take (· == ' ')

/-- The placeholder, if the segment ends at the offset. -/
def finish (text : String) (offset : Nat) (token : String) (array : Bool) (label : String) :
    Option Placeholder :=
  if offset < text.utf8ByteSize then none
  else some ⟨token, array, if label = "" then none else some label⟩

/-- Reads a label that ends the segment. A placeholder for one value has to have it. -/
def scanTrailing (text token : String) (array : Bool) (offset : Nat) :
    Except OffsetFault (Option Placeholder) := do
  let (label, offset) ← take isLabelChar text offset
  if array = false ∧ label = "" then return none
  else return finish text offset token array label

/-- Reads a label up to the brace that ends the segment. -/
def scanEnclosed (text token : String) (array : Bool) (offset : Nat) :
    Except OffsetFault (Option Placeholder) := do
  let (label, offset) ← take isLabelChar text offset
  if array = false ∧ label = "" then return none
  else return (eat '}' text offset).bind fun offset => finish text offset token array label

/-- Reads the rest of an array placeholder, after the dots. -/
def scanAfterDots (text token : String) (offset : Nat) :
    Except OffsetFault (Option Placeholder) :=
  match eat '}' text offset with
  | some offset => do
    let (_, offset) ← takeBlanks text offset
    scanTrailing text token true offset
  | none => do
    let (blanks, offset) ← takeBlanks text offset
    if blanks = "" then return none
    else scanEnclosed text token true offset

/-- Reads the rest of a placeholder for one value, after the brace behind its token. -/
def scanAfterBrace (text token : String) (offset : Nat) :
    Except OffsetFault (Option Placeholder) :=
  if text.utf8ByteSize ≤ offset then return some ⟨token, false, none⟩
  else do
    let (blanks, offset) ← takeBlanks text offset
    if blanks = "" then return none
    else scanTrailing text token false offset

/-- Reads the rest of a placeholder for one value, after its token and the blanks behind it. -/
def scanAfterBlanks (text token blanks : String) (offset : Nat) :
    Except OffsetFault (Option Placeholder) :=
  match eat '}' text offset with
  | some offset => if blanks = "" then scanAfterBrace text token offset else return none
  | none => if blanks = "" then return none else scanEnclosed text token false offset

/-- Reads what follows the token of a placeholder. -/
def scanAfterToken (text token : String) (offset : Nat) :
    Except OffsetFault (Option Placeholder) := do
  let (blanks, offset) ← takeBlanks text offset
  match ← eatDots text offset with
  | some offset => scanAfterDots text token offset
  | none => scanAfterBlanks text token blanks offset

/-- The placeholder that a segment declares, read from offset to offset. -/
def ofTextByOffset (text : String) : Except OffsetFault (Option Placeholder) :=
  match eat '{' text 0 with
  | some offset => do
    let (token, offset) ← take isTokenChar text offset
    if token = "" then return none else scanAfterToken text token offset
  | none => return none

section Scanner

variable {text token : String} {offset : Nat} {cs rest label : List Char} {c : Char} {array : Bool}
  {test : Char → Bool}

/-! ### One part -/

theorem asciiOnly_tokenChar : AsciiOnly isTokenChar := fun _ hc => isAscii_of_isTokenChar hc

theorem asciiOnly_labelChar : AsciiOnly isLabelChar := fun _ hc => isAscii_of_isLabelChar hc

theorem eat_eq (h : At text offset cs) (hc : c.toNat < 128) :
    eat c text offset = if cs.head? = some c then some (offset + 1) else none := by
  unfold eat
  rw [← List.head?_drop, h.drop_eq]
  exact if_congr (head?_encode hc) rfl rfl

theorem eat_cons (h : At text offset (c :: rest)) (hc : c.toNat < 128) :
    eat c text offset = some (offset + 1) := by
  rw [eat_eq h hc, List.head?_cons, if_pos rfl]

theorem eat_of_head (h : At text offset cs) (hc : c.toNat < 128) (hhead : cs.head? ≠ some c) :
    eat c text offset = none := by
  rw [eat_eq h hc, if_neg hhead]

theorem eatDots_eq (h : At text offset cs) :
    eatDots text offset = .ok (if ['.', '.', '.'] <+: cs then some (offset + 3) else none) := by
  have hdots : ['.', '.', '.'] <+: encode cs ↔ ['.', '.', '.'] <+: cs :=
    prefix_encode_iff (by simp)
  rw [eatDots, h.suffix_eq, Outcome.ok_bind]
  exact congrArg _ (if_congr hdots rfl rfl)

theorem take_eq (h : At text offset cs) (htest : AsciiOnly test) :
    ∃ stop, take test text offset = .ok (String.ofList (cs.takeWhile test), stop) ∧
      At text stop (cs.dropWhile test) := by
  have hcs : At text offset (cs.takeWhile test ++ cs.dropWhile test) := by
    rw [List.takeWhile_append_dropWhile]
    exact h
  have hrun : encode (cs.takeWhile test) = cs.takeWhile test :=
    htest.encode_of_all (List.all_eq_true.1 List.all_takeWhile)
  have hslice := hcs.slice_eq
  have hstop := hcs.skip
  rw [hrun] at hslice hstop
  refine ⟨_, ?_, hstop⟩
  rw [take, h.drop_eq, takeWhile_encode htest, hslice]
  rfl

theorem takeBlanks_eq (h : At text offset cs) :
    ∃ stop, takeBlanks text offset = .ok (String.ofList (cs.takeWhile (· == ' ')), stop) ∧
      At text stop (skipBlanks cs) :=
  take_eq h (asciiOnly_beq (by decide))

theorem finish_eq (h : At text offset rest) :
    finish text offset token array (String.ofList label) =
      if rest = [] then some ⟨token, array, labelOf label⟩ else none := by
  have hlabel : (if String.ofList label = "" then none else some (String.ofList label)) =
      labelOf label := by
    simp [labelOf]
  unfold finish
  rw [hlabel]
  by_cases hrest : rest = []
  · rw [if_neg (mt h.lt_size_iff.1 (not_not.2 hrest)), if_pos hrest]
  · rw [if_pos (h.lt_size_iff.2 hrest), if_neg hrest]

/-! ### Labels -/

/-- A placeholder for one value has to have the label. -/
def required (array : Bool) (label : Option (List Char)) : Option (List Char) :=
  if array then label else present label

/-- The placeholder with this label. -/
def labelled (token : String) (array : Bool) (label : List Char) : Placeholder :=
  ⟨token, array, labelOf label⟩

theorem required_ite (P : Prop) [Decidable P] :
    required array (if P then some label else none) =
      if array = false ∧ label = [] then none else if P then some label else none := by
  by_cases hP : P <;> cases array <;> by_cases hlabel : label = [] <;>
    simp [required, present, hP, hlabel]

theorem trailingLabel?_eq (cs : List Char) :
    trailingLabel? cs =
      if cs.dropWhile isLabelChar = [] then some (cs.takeWhile isLabelChar) else none := by
  by_cases hcs : cs.all isLabelChar = true
  · have hspan := @Run.span_iff _ isLabelChar cs [] cs
    obtain ⟨hrun, hrest⟩ := hspan.2 ⟨cs.append_nil.symm, List.all_eq_true.1 hcs, Run.stops_nil⟩
    rw [trailingLabel?, if_pos hcs, hrest, if_pos rfl, hrun]
  · have hrest : cs.dropWhile isLabelChar ≠ [] :=
      fun hnil => hcs (List.all_eq_true.2 (List.dropWhile_eq_nil_iff.1 hnil))
    rw [trailingLabel?, if_neg hcs, if_neg hrest]

theorem close_eq (h : At text offset rest) :
    ((eat '}' text offset).bind fun offset =>
        finish text offset token array (String.ofList label)) =
      if rest = ['}'] then some (labelled token array label) else none := by
  rw [eat_eq h (by decide)]
  cases rest with
  | nil => rfl
  | cons c rest =>
    by_cases hc : c = '}'
    · subst hc
      have hrest : At text (offset + 1) rest := h.skip_of_ascii (by decide)
      rw [List.head?_cons, if_pos rfl, Option.bind_some, finish_eq hrest]
      simp [labelled]
    · simp [hc]

theorem scanTrailing_eq (h : At text offset cs) :
    scanTrailing text token array offset =
      .ok ((required array (trailingLabel? cs)).map (labelled token array)) := by
  obtain ⟨stop, htake, hstop⟩ := take_eq h asciiOnly_labelChar
  rw [scanTrailing, htake, Outcome.ok_bind, trailingLabel?_eq, required_ite]
  simp only [String.ofList_eq_empty_iff, finish_eq hstop]
  split
  · rfl
  · split <;> rfl

theorem scanEnclosed_eq (h : At text offset cs) :
    scanEnclosed text token array offset =
      .ok ((required array (enclosedLabel? cs)).map (labelled token array)) := by
  obtain ⟨stop, htake, hstop⟩ := take_eq h asciiOnly_labelChar
  rw [scanEnclosed, htake, Outcome.ok_bind, enclosedLabel?, required_ite]
  simp only [String.ofList_eq_empty_iff, close_eq hstop]
  split
  · rfl
  · split <;> rfl

/-! ### After the token -/

theorem blanks_eq_empty_iff (cs : List Char) :
    String.ofList (cs.takeWhile (· == ' ')) = "" ↔ cs.head? ≠ some ' ' := by
  rw [String.ofList_eq_empty_iff]
  cases cs with
  | nil => simp
  | cons c cs => by_cases hc : c = ' ' <;> simp [hc]

theorem blanks_cons_ne_empty (rest : List Char) :
    String.ofList ((' ' :: rest).takeWhile (· == ' ')) ≠ "" :=
  mt (blanks_eq_empty_iff (' ' :: rest)).1 (not_not.2 rfl)

theorem skipBlanks_of_head (h : cs.head? ≠ some ' ') : skipBlanks cs = cs := by
  cases cs with
  | nil => rfl
  | cons c cs =>
    have hc : c ≠ ' ' := by simpa using h
    simp [skipBlanks, hc]

theorem head?_ne_of_forall (h : ∀ rest, cs = c :: rest → False) : cs.head? ≠ some c := by
  intro hhead
  obtain ⟨rest, hrest⟩ := List.head?_eq_some_iff.1 hhead
  exact h rest hrest

theorem scanAfterDots_eq (h : At text offset cs) :
    scanAfterDots text token offset = .ok ((afterDots? cs).map (labelled token true)) := by
  unfold afterDots?
  split
  · next rest =>
    obtain ⟨stop, htake, hstop⟩ := takeBlanks_eq (h.skip_of_ascii (by decide))
    simp only [scanAfterDots, eat_cons h (by decide), htake, Outcome.ok_bind]
    exact scanTrailing_eq hstop
  · next rest =>
    obtain ⟨stop, htake, hstop⟩ := takeBlanks_eq h
    have hbrace : eat '}' text offset = none := eat_of_head h (by decide) (by simp)
    simp only [scanAfterDots, hbrace, htake, Outcome.ok_bind, if_neg (blanks_cons_ne_empty rest)]
    exact scanEnclosed_eq hstop
  · next hbrace hblank =>
    obtain ⟨stop, htake, -⟩ := takeBlanks_eq h
    have hbrace := eat_of_head h (by decide) (head?_ne_of_forall hbrace)
    have hblanks := (blanks_eq_empty_iff cs).2 (head?_ne_of_forall hblank)
    simp only [scanAfterDots, hbrace, htake, Outcome.ok_bind, if_pos hblanks]
    rfl

theorem scanAfterBrace_eq (h : At text offset rest) :
    scanAfterBrace text token offset =
      .ok ((afterToken? ('}' :: rest)).map (labelled token false)) := by
  cases rest with
  | nil =>
    rw [scanAfterBrace, if_pos (Nat.not_lt.1 (mt h.lt_size_iff.1 (· rfl)))]
    rfl
  | cons c rest =>
    have hsize : ¬text.utf8ByteSize ≤ offset :=
      Nat.not_le.2 (h.lt_size_iff.2 (List.cons_ne_nil c rest))
    obtain ⟨stop, htake, hstop⟩ := takeBlanks_eq h
    rw [scanAfterBrace, if_neg hsize, htake, Outcome.ok_bind]
    by_cases hc : c = ' '
    · subst hc
      show (if _ then _ else _) = _
      rw [if_neg (blanks_cons_ne_empty rest)]
      exact scanTrailing_eq hstop
    · have hread : afterToken? ('}' :: c :: rest) = none := by simp [afterToken?, hc]
      show (if _ then _ else _) = _
      rw [if_pos ((blanks_eq_empty_iff (c :: rest)).2 (by simpa using hc)), hread]
      rfl

/-- The label that the blanks announce has to be there. -/
theorem present_enclosedLabel?_brace (rest : List Char) :
    present (enclosedLabel? ('}' :: rest)) = none := by
  have hlabel : ('}' :: rest).takeWhile isLabelChar = [] := rfl
  rw [enclosedLabel?, hlabel]
  split <;> rfl

theorem scanAfterBlanks_eq (h : At text offset (skipBlanks cs)) :
    scanAfterBlanks text token (String.ofList (cs.takeWhile (· == ' '))) offset =
      .ok ((afterToken? cs).map (labelled token false)) := by
  by_cases hblank : cs.head? = some ' '
  · obtain ⟨rest, rfl⟩ := List.head?_eq_some_iff.1 hblank
    have hblanks := blanks_cons_ne_empty rest
    by_cases hhead : (skipBlanks rest).head? = some '}'
    · obtain ⟨label, hlabel⟩ := List.head?_eq_some_iff.1 hhead
      have hbrace : eat '}' text offset = some (offset + 1) :=
        (eat_eq h (by decide)).trans (if_pos hhead)
      have hread : afterToken? (' ' :: rest) = none := by
        rw [afterToken?, hlabel, present_enclosedLabel?_brace]
      simp only [scanAfterBlanks, hbrace, if_neg hblanks, hread]
      rfl
    · have hbrace : eat '}' text offset = none := eat_of_head h (by decide) hhead
      simp only [scanAfterBlanks, hbrace, if_neg hblanks]
      exact scanEnclosed_eq h
  · have hblanks := (blanks_eq_empty_iff cs).2 hblank
    rw [skipBlanks_of_head hblank] at h
    by_cases hhead : cs.head? = some '}'
    · obtain ⟨rest, rfl⟩ := List.head?_eq_some_iff.1 hhead
      simp only [scanAfterBlanks, eat_cons h (by decide), if_pos hblanks]
      exact scanAfterBrace_eq (h.skip_of_ascii (by decide))
    · have hbrace : eat '}' text offset = none := eat_of_head h (by decide) hhead
      have hread : afterToken? cs = none := by
        unfold afterToken?
        split
        · exact absurd rfl hhead
        · exact absurd rfl hhead
        · exact absurd rfl hblank
        · rfl
      simp only [scanAfterBlanks, hbrace, if_pos hblanks, hread]
      rfl

/-! ### The whole segment -/

theorem scanAfterToken_eq (h : At text offset cs) :
    scanAfterToken text token offset =
      .ok ((afterName? cs).map fun (array, label) => labelled token array label) := by
  obtain ⟨stop, htake, hstop⟩ := takeBlanks_eq h
  simp only [scanAfterToken, htake, Outcome.ok_bind, eatDots_eq hstop]
  by_cases hdots : ['.', '.', '.'] <+: skipBlanks cs
  · obtain ⟨rest, hrest⟩ := hdots
    have hskip : skipBlanks cs = '.' :: '.' :: '.' :: rest := hrest.symm
    have hbehind : At text (stop + 3) rest := by
      rw [hskip] at hstop
      have hone := hstop.skip_of_ascii (by decide)
      have htwo := hone.skip_of_ascii (by decide)
      exact htwo.skip_of_ascii (by decide)
    rw [afterName?_of_dots hskip, hskip, if_pos ⟨rest, rfl⟩, Option.map_map]
    exact scanAfterDots_eq hbehind
  · have hskip : ∀ rest, skipBlanks cs ≠ '.' :: '.' :: '.' :: rest :=
      fun rest hrest => hdots ⟨rest, hrest.symm⟩
    rw [afterName?_of_no_dots hskip, if_neg hdots, Option.map_map]
    exact scanAfterBlanks_eq hstop

theorem ofTextByOffset_eq (text : String) : ofTextByOffset text = .ok (ofText? text) := by
  have h := At.start text
  unfold ofTextByOffset ofText?
  by_cases hhead : text.toList.head? = some '{'
  · obtain ⟨cs, hcs⟩ := List.head?_eq_some_iff.1 hhead
    rw [hcs] at h ⊢
    obtain ⟨stop, htake, hstop⟩ := take_eq (h.skip_of_ascii (by decide)) asciiOnly_tokenChar
    simp only [eat_cons h (by decide), htake, Outcome.ok_bind, scanAfterToken_eq hstop, ofChars?,
      String.ofList_eq_empty_iff, List.isEmpty_iff]
    split <;> rfl
  · have hread : ofChars? text.toList = none := by
      unfold ofChars?
      split
      · next hcs => exact absurd (by rw [hcs]; rfl) hhead
      · rfl
    simp only [eat_of_head h (by decide) hhead, hread]
    rfl

end Scanner

end Placeholder
end TypedRouting
