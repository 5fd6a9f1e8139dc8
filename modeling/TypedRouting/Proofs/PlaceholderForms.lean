import TypedRouting.Pattern.Placeholder
import TypedRouting.Proofs.Runs

/-!
# The forms of a placeholder

`Placeholder.Written` says how a placeholder is written: an opening brace, the token, and one of the
five forms of what follows it, each with its blanks and the place of its label.

* `Placeholder.ofChars?_eq_some_iff`: the reader accepts just what is written in a form.
* `Placeholder.ofText?_iff_written`: so it reads each placeholder, refuses every other text, and no
  text is written for two placeholders.
* `Placeholder.Written.parts`: the characters that the token and the label are made of.

Each reader of a part has a lemma that says what it accepts.
-/

namespace TypedRouting
namespace Placeholder

/-! ### The grammar -/

/-- A token: ASCII letters and digits, at least one. -/
def IsToken (cs : List Char) : Prop := cs ≠ [] ∧ ∀ c ∈ cs, isTokenChar c = true

/-- A label: ASCII letters, digits, `_` and `-`, possibly none. -/
def IsLabel (cs : List Char) : Prop := ∀ c ∈ cs, isLabelChar c = true

def blanks (n : Nat) : List Char := List.replicate n ' '

/-- What follows the token: whether the placeholder is an array, its label, and the text. -/
inductive Form : Bool → List Char → List Char → Prop
  | bare : Form false [] ['}']
  | inner {label : List Char} (n : Nat) (hlabel : IsLabel label) (hne : label ≠ []) :
      Form false label (blanks (n + 1) ++ (label ++ ['}']))
  | outer {label : List Char} (n : Nat) (hlabel : IsLabel label) (hne : label ≠ []) :
      Form false label ('}' :: (blanks (n + 1) ++ label))
  | arrayInner {label : List Char} (m n : Nat) (hlabel : IsLabel label) :
      Form true label (blanks m ++ '.' :: '.' :: '.' :: (blanks (n + 1) ++ (label ++ ['}'])))
  | arrayOuter {label : List Char} (m n : Nat) (hlabel : IsLabel label) :
      Form true label (blanks m ++ '.' :: '.' :: '.' :: '}' :: (blanks n ++ label))

/-- The characters are those of the placeholder in one of its forms. -/
def Written (p : Placeholder) (cs : List Char) : Prop :=
  ∃ token label rest, cs = '{' :: (token ++ rest) ∧ IsToken token ∧ Form p.array label rest ∧
    p.token = String.ofList token ∧ p.label = labelOf label

variable {cs rest label : List Char} {array : Bool} {p : Placeholder}

/-! ### Characters and labels -/

theorem isTokenChar_iff {c : Char} :
    isTokenChar c = true ↔
      ('A' ≤ c ∧ c ≤ 'Z') ∨ ('a' ≤ c ∧ c ≤ 'z') ∨ ('0' ≤ c ∧ c ≤ '9') := by
  have hclass : isTokenChar c = (decide ('A' ≤ c ∧ c ≤ 'Z') ||
      (decide ('a' ≤ c) && decide (c ≤ 'z')) || (decide ('0' ≤ c) && decide (c ≤ '9'))) := rfl
  simp only [hclass, Bool.or_eq_true, Bool.and_eq_true, decide_eq_true_eq, or_assoc]

theorem isLabelChar_iff {c : Char} :
    isLabelChar c = true ↔ isTokenChar c = true ∨ c = '_' ∨ c = '-' := by
  simp [isLabelChar, isTokenChar, or_assoc]

theorem labelOf_eq_none_iff : labelOf cs = none ↔ cs = [] := by
  simp [labelOf]

theorem labelOf_eq_some_iff {text : String} :
    labelOf cs = some text ↔ text ≠ "" ∧ cs = text.toList := by
  constructor
  · intro h
    obtain ⟨hne, htext⟩ := Option.ite_none_left_eq_some.1 h
    obtain rfl := Option.some.inj htext
    refine ⟨?_, String.toList_ofList.symm⟩
    simpa using hne
  · rintro ⟨hne, rfl⟩
    simp [labelOf, hne]

/-! ### Reading blanks and labels -/

theorem skipBlanks_eq_iff (hrest : Run.Stops (· == ' ') rest) :
    skipBlanks cs = rest ↔ ∃ n, cs = blanks n ++ rest := by
  constructor
  · rintro rfl
    obtain ⟨hcs, hblank, -⟩ := Run.span_iff.1 ⟨rfl, rfl⟩
    refine ⟨(cs.takeWhile (· == ' ')).length, ?_⟩
    have hrun : cs.takeWhile (· == ' ') = blanks (cs.takeWhile (· == ' ')).length :=
      List.eq_replicate_iff.2 ⟨rfl, fun c hc => by simpa using hblank c hc⟩
    rw [← hrun]
    exact hcs
  · rintro ⟨n, rfl⟩
    refine Run.dropWhile_append ?_ hrest
    intro c hc
    simp [List.eq_of_mem_replicate hc]

theorem IsLabel.stops_blank (hlabel : IsLabel label) (hrest : Run.Stops (· == ' ') rest) :
    Run.Stops (· == ' ') (label ++ rest) := by
  cases label with
  | nil => exact hrest
  | cons c label =>
    have hc := hlabel c List.mem_cons_self
    refine Run.stops_cons.2 (beq_false_of_ne ?_)
    rintro rfl
    exact absurd hc (by decide)

theorem trailingLabel?_eq_some_iff :
    trailingLabel? cs = some label ↔ cs = label ∧ IsLabel label := by
  unfold trailingLabel? IsLabel
  constructor
  · intro h
    obtain ⟨hall, heq⟩ := Option.ite_none_right_eq_some.1 h
    obtain rfl := Option.some.inj heq
    exact ⟨rfl, List.all_eq_true.1 hall⟩
  · rintro ⟨rfl, hlabel⟩
    rw [if_pos (List.all_eq_true.2 hlabel)]

theorem enclosedLabel?_eq_some_iff :
    enclosedLabel? cs = some label ↔ cs = label ++ ['}'] ∧ IsLabel label := by
  have hstops : Run.Stops isLabelChar ['}'] := Run.stops_cons.2 (by decide)
  unfold enclosedLabel? IsLabel
  constructor
  · intro h
    obtain ⟨hrest, hrun⟩ := Option.ite_none_right_eq_some.1 h
    obtain ⟨hcs, hlabel, -⟩ := Run.span_iff.1 ⟨Option.some.inj hrun, hrest⟩
    exact ⟨hcs, hlabel⟩
  · rintro ⟨rfl, hlabel⟩
    rw [if_pos (Run.dropWhile_append hlabel hstops), Run.takeWhile_append hlabel hstops]

theorem present_eq_some_iff {found : Option (List Char)} :
    present found = some label ↔ found = some label ∧ label ≠ [] := by
  simp [present, Option.filter_eq_some_iff]

/-- Blanks, then a label to the end of the segment. -/
theorem trailing_after_blanks_iff :
    trailingLabel? (skipBlanks cs) = some label ↔
      IsLabel label ∧ ∃ n, cs = blanks n ++ label := by
  rw [trailingLabel?_eq_some_iff, and_comm, and_congr_right_iff]
  intro hlabel
  have hstops := hlabel.stops_blank Run.stops_nil
  rw [List.append_nil] at hstops
  exact skipBlanks_eq_iff hstops

/-- Blanks, then a label to the brace that ends the segment. -/
theorem enclosed_after_blanks_iff :
    enclosedLabel? (skipBlanks cs) = some label ↔
      IsLabel label ∧ ∃ n, cs = blanks n ++ (label ++ ['}']) := by
  rw [enclosedLabel?_eq_some_iff, and_comm, and_congr_right_iff]
  intro hlabel
  exact skipBlanks_eq_iff (hlabel.stops_blank (Run.stops_cons.2 (by decide)))

/-! ### What follows the token -/

theorem afterDots?_eq_some_iff :
    afterDots? cs = some label ↔ IsLabel label ∧
      ((∃ n, cs = '}' :: (blanks n ++ label)) ∨ ∃ n, cs = blanks (n + 1) ++ (label ++ ['}'])) := by
  unfold afterDots?
  split
  · simp [trailing_after_blanks_iff, blanks, List.replicate_succ]
  · simp [enclosed_after_blanks_iff, blanks, List.replicate_succ]
  · next hbrace hblank =>
    constructor
    · intro h
      cases h
    · rintro ⟨-, ⟨n, rfl⟩ | ⟨n, rfl⟩⟩
      · exact absurd rfl (hbrace _)
      · exact absurd rfl (hblank _)

theorem afterToken?_eq_some_iff : afterToken? cs = some label ↔ Form false label cs := by
  constructor
  · intro h
    unfold afterToken? at h
    split at h
    · cases h
      exact .bare
    · obtain ⟨hread, hne⟩ := present_eq_some_iff.1 h
      obtain ⟨hlabel, n, rfl⟩ := trailing_after_blanks_iff.1 hread
      exact .outer n hlabel hne
    · obtain ⟨hread, hne⟩ := present_eq_some_iff.1 h
      obtain ⟨hlabel, n, rfl⟩ := enclosed_after_blanks_iff.1 hread
      exact .inner n hlabel hne
    · cases h
  · intro h
    -- the first blank of a run picks the branch of the reader
    cases h with
    | bare => rfl
    | inner n hlabel hne =>
      exact present_eq_some_iff.2 ⟨enclosed_after_blanks_iff.2 ⟨hlabel, n, rfl⟩, hne⟩
    | outer n hlabel hne =>
      exact present_eq_some_iff.2 ⟨trailing_after_blanks_iff.2 ⟨hlabel, n, rfl⟩, hne⟩

theorem afterName?_of_no_dots (h : ∀ rest, skipBlanks cs ≠ '.' :: '.' :: '.' :: rest) :
    afterName? cs = (afterToken? cs).map (false, ·) := by
  unfold afterName?
  split
  · next rest hdots => exact absurd hdots (h rest)
  · rfl

theorem afterName?_of_dots (h : skipBlanks cs = '.' :: '.' :: '.' :: rest) :
    afterName? cs = (afterDots? rest).map (true, ·) := by
  simp [afterName?, h]

/-- A label comes before any dots. -/
theorem Form.no_dots (h : Form false label cs) :
    ∀ rest, skipBlanks cs ≠ '.' :: '.' :: '.' :: rest := by
  intro rest hskip
  cases h with
  | bare => exact absurd hskip (by simp [skipBlanks])
  | outer n hlabel hne => exact absurd hskip (by simp [skipBlanks])
  | inner n hlabel hne =>
    have hbrace : Run.Stops (· == ' ') ['}'] := Run.stops_cons.2 (by decide)
    rw [(skipBlanks_eq_iff (hlabel.stops_blank hbrace)).2 ⟨n + 1, rfl⟩] at hskip
    obtain ⟨c, label, rfl⟩ := List.exists_cons_of_ne_nil hne
    have hc : isLabelChar c = true := hlabel c List.mem_cons_self
    rw [(List.cons.inj hskip).1] at hc
    exact absurd hc (by decide)

theorem afterName?_eq_some_iff : afterName? cs = some (array, label) ↔ Form array label cs := by
  have hdot : ∀ rest, Run.Stops (· == ' ') ('.' :: '.' :: '.' :: rest) :=
    fun rest => Run.stops_cons.2 (by decide)
  constructor
  · intro h
    by_cases hdots : ∃ rest, skipBlanks cs = '.' :: '.' :: '.' :: rest
    · obtain ⟨rest, hskip⟩ := hdots
      rw [afterName?_of_dots hskip] at h
      obtain ⟨_, hread, ⟨⟩⟩ := Option.map_eq_some_iff.1 h
      obtain ⟨m, rfl⟩ := (skipBlanks_eq_iff (hdot rest)).1 hskip
      obtain ⟨hlabel, ⟨n, rfl⟩ | ⟨n, rfl⟩⟩ := afterDots?_eq_some_iff.1 hread
      · exact .arrayOuter m n hlabel
      · exact .arrayInner m n hlabel
    · rw [afterName?_of_no_dots fun rest hskip => hdots ⟨rest, hskip⟩] at h
      obtain ⟨_, hread, ⟨⟩⟩ := Option.map_eq_some_iff.1 h
      exact afterToken?_eq_some_iff.1 hread
  · intro h
    cases array with
    | false => rw [afterName?_of_no_dots h.no_dots, afterToken?_eq_some_iff.2 h, Option.map_some]
    | true =>
      cases h with
      | arrayInner m n hlabel =>
        have hread := afterDots?_eq_some_iff.2 ⟨hlabel, .inr ⟨n, rfl⟩⟩
        rw [afterName?_of_dots ((skipBlanks_eq_iff (hdot _)).2 ⟨m, rfl⟩), hread, Option.map_some]
      | arrayOuter m n hlabel =>
        have hread := afterDots?_eq_some_iff.2 ⟨hlabel, .inl ⟨n, rfl⟩⟩
        rw [afterName?_of_dots ((skipBlanks_eq_iff (hdot _)).2 ⟨m, rfl⟩), hread, Option.map_some]

/-! ### The whole segment -/

/-- No form starts with a letter or a digit, so the token ends where it should. -/
theorem Form.stops (h : Form array label cs) : Run.Stops isTokenChar cs := by
  cases h with
  | bare => exact Run.stops_cons.2 (by decide)
  | inner n hlabel hne => exact Run.stops_cons.2 (by decide)
  | outer n hlabel hne => exact Run.stops_cons.2 (by decide)
  | arrayInner m n hlabel => cases m <;> exact Run.stops_cons.2 (by decide)
  | arrayOuter m n hlabel => cases m <;> exact Run.stops_cons.2 (by decide)

theorem ofChars?_eq_some_iff : ofChars? cs = some p ↔ p.Written cs := by
  constructor
  · intro h
    unfold ofChars? at h
    split at h
    · next cs =>
      obtain ⟨hne, hmap⟩ := Option.ite_none_left_eq_some.1 h
      obtain ⟨⟨array, label⟩, hname, rfl⟩ := Option.map_eq_some_iff.1 hmap
      obtain ⟨hcs, htoken, -⟩ := Run.span_iff.1 ⟨rfl, rfl⟩
      refine ⟨_, label, _, congrArg _ hcs, ⟨?_, htoken⟩, afterName?_eq_some_iff.1 hname, rfl, rfl⟩
      simpa using hne
    · cases h
  · rintro ⟨token, label, rest, rfl, ⟨hne, htoken⟩, hform, hname, hlabel⟩
    have hempty : token.isEmpty = false := by simpa using hne
    simp [ofChars?, Run.takeWhile_append htoken hform.stops,
      Run.dropWhile_append htoken hform.stops, hempty, afterName?_eq_some_iff.2 hform, ← hname,
      ← hlabel]

theorem Form.isLabel (h : Form array label cs) : IsLabel label := by
  cases h with
  | bare => exact List.forall_mem_nil _
  | inner n hlabel hne => exact hlabel
  | outer n hlabel hne => exact hlabel
  | arrayInner m n hlabel => exact hlabel
  | arrayOuter m n hlabel => exact hlabel

/-- Whatever the form, the token has a letter or a digit, and the label, where there is one, has
a character. Neither has any character of another class. -/
theorem Written.parts (h : p.Written cs) :
    p.token ≠ "" ∧ (∀ c ∈ p.token.toList, isTokenChar c = true) ∧
      ∀ text, p.label = some text → text ≠ "" ∧
        ∀ c ∈ text.toList, isTokenChar c = true ∨ c = '_' ∨ c = '-' := by
  obtain ⟨token, label, rest, -, ⟨hne, htoken⟩, hform, hname, hlabel⟩ := h
  refine ⟨?_, ?_, fun text htext => ?_⟩
  · rw [hname]
    simpa using hne
  · rw [hname, String.toList_ofList]
    exact htoken
  · obtain ⟨hsome, rfl⟩ := labelOf_eq_some_iff.1 (hlabel.symm.trans htext)
    exact ⟨hsome, fun c hc => isLabelChar_iff.1 (hform.isLabel c hc)⟩

theorem Written.unique {q : Placeholder} (hp : p.Written cs) (hq : q.Written cs) : p = q :=
  Option.some.inj ((ofChars?_eq_some_iff.2 hp).symm.trans (ofChars?_eq_some_iff.2 hq))

/-- **The grammar of placeholders.** A segment is read as a placeholder just where it is written as
that placeholder, it is literal text just where it is written as none, and it is written as one at
most. -/
theorem ofText?_iff_written (segment : String) :
    (∀ p, ofText? segment = some p ↔ p.Written segment.toList) ∧
      (ofText? segment = none ↔ ∀ p, ¬Written p segment.toList) ∧
      ∀ p q, Written p segment.toList → Written q segment.toList → p = q := by
  have hread : ∀ p, ofText? segment = some p ↔ p.Written segment.toList :=
    fun p => ofChars?_eq_some_iff
  refine ⟨hread, ?_, fun p q => Written.unique⟩
  rw [Option.eq_none_iff_forall_ne_some]
  exact forall_congr' fun p => not_congr (hread p)

/-- Blanks on both sides of the dots, and none that the label needs. -/
example : ofText? "{Integer  ... ids}" = some ⟨"Integer", true, some "ids"⟩ ∧
    ofText? "{Integer...ids}" = none := by
  decide

end Placeholder
end TypedRouting
