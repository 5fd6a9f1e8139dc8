import TypedRouting.Proofs.DecimalLayout
import TypedRouting.Proofs.SegmentOffsets

/-!
# Decimals read and written by offset

A decimal is kept as its sign, the text of its digits and its scale. The reader goes over the bytes
of a text and cuts off the exponent, and the writer cuts the digits to put the point between them.

* `Mantissa.significant_eq`: the digits that are kept are those of the number.
* `Decimal.readByOffset_eq`: the reader finds the decimal of a text.
* `Decimal.write_stored`: the writer has room for each of its cuts and for the zeros it pads with.
* `Text.read_by_offset`: the readers and the writer that work by offset, all of them together.
-/

namespace TypedRouting
namespace Numeral

open Text

/-! ### Digits that are kept -/

section Digits

variable {c : Char} {n : Nat} {m : Mantissa}

theorem toNat_of_isDigit (h : c.isDigit = true) : 48 ≤ c.toNat ∧ c.toNat < 58 := by
  simp [Char.isDigit, UInt32.le_iff_toNat_le] at h
  omega

theorem asciiOnly_isDigit : AsciiOnly Char.isDigit := by
  intro c hc
  have hrange := toNat_of_isDigit hc
  omega

theorem toDigits_digit (h : c.isDigit = true) : Nat.toDigits 10 (c.toNat - '0'.toNat) = [c] := by
  obtain ⟨hlower, hupper⟩ := toNat_of_isDigit h
  have hzero : '0'.toNat = 48 := rfl
  have hlt : c.toNat - '0'.toNat < 10 := by omega
  have hchar : (c.toNat - '0'.toNat).digitChar = c := by
    rw [← Char.toNat_inj, Nat.toNat_digitChar_of_lt_ten hlt]
    omega
  rw [Nat.toDigits_of_lt_base hlt, hchar]

/-- Digits that follow those of a number are the last ones of the number they lead to. -/
theorem toDigits_append {ds : List Char} (h : ∀ c ∈ ds, c.isDigit = true) (hn : 0 < n) :
    Nat.toDigits 10 n ++ ds = Nat.toDigits 10 (Nat.ofDigitChars 10 ds n) := by
  induction ds generalizing n with
  | nil => rw [List.append_nil, Nat.ofDigitChars_nil]
  | cons c ds ih =>
    obtain ⟨hc, hds⟩ := List.forall_mem_cons.1 h
    obtain ⟨hlower, hupper⟩ := toNat_of_isDigit hc
    have hzero : '0'.toNat = 48 := rfl
    calc Nat.toDigits 10 n ++ c :: ds
      _ = (Nat.toDigits 10 n ++ [c]) ++ ds := by rw [List.append_assoc]; rfl
      _ = Nat.toDigits 10 (10 * n + (c.toNat - '0'.toNat)) ++ ds := by
        rw [← toDigits_digit hc, Nat.toDigits_append_toDigits (by decide) hn (by omega)]
      _ = Nat.toDigits 10 (Nat.ofDigitChars 10 (c :: ds) n) := by
        rw [ih hds (by omega), Nat.ofDigitChars_cons]

/-- The digits from the first that is not zero on are those of the coefficient. -/
theorem Mantissa.significant_eq (h : ∀ c ∈ m.digits, c.isDigit = true) :
    m.significant = Nat.toDigits 10 m.coefficient := by
  unfold significant coefficient
  generalize m.digits = ds at h ⊢
  induction ds with
  | nil => rfl
  | cons c ds ih =>
    obtain ⟨hc, hds⟩ := List.forall_mem_cons.1 h
    by_cases hzero : c = '0'
    · subst hzero
      exact ih hds
    · have hpos : 0 < c.toNat - '0'.toNat := by
        have hne : c.toNat ≠ '0'.toNat := fun heq => hzero (Char.toNat_inj.1 heq)
        have hrange := toNat_of_isDigit hc
        have hcode : '0'.toNat = 48 := rfl
        omega
      have hdrop : (c :: ds).dropWhile (· == '0') = c :: ds := by simp [hzero]
      rw [hdrop, Nat.ofDigitChars_cons, Nat.mul_zero, Nat.zero_add, ← toDigits_append hds hpos,
        toDigits_digit hc]
      rfl

end Digits

/-! ### Mantissas -/

namespace Mantissa

/-- The mantissa with digits more behind its point, or before it where there is none yet. -/
def extend (m : Mantissa) (pointed : Bool) (digits : List Char) : Mantissa :=
  if pointed then { m with fraction := m.fraction ++ digits }
  else { m with whole := m.whole ++ digits }

/-- Goes over the bytes from an offset on, as long as they are digits or the first point. Gives the
offset behind them with the digits. -/
def scanBytes (offset : Nat) (m : Mantissa) (pointed : Bool) : List Char → Nat × Mantissa
  | [] => (offset, m)
  | c :: cs =>
    if c.isDigit then scanBytes (offset + 1) (m.extend pointed [c]) pointed cs
    else if c = '.' ∧ pointed = false then scanBytes (offset + 1) m true cs
    else (offset, m)

variable {offset : Nat} {m : Mantissa} {pointed : Bool} {run rest cs : List Char} {text : String}

theorem extend_cons (m : Mantissa) (pointed : Bool) (c : Char) (run : List Char) :
    (m.extend pointed [c]).extend pointed run = m.extend pointed (c :: run) := by
  cases pointed <;> simp [extend]

theorem scanBytes_append (h : ∀ c ∈ run, c.isDigit = true) :
    scanBytes offset m pointed (run ++ rest) =
      scanBytes (offset + run.length) (m.extend pointed run) pointed rest := by
  induction run generalizing offset m with
  | nil => cases pointed <;> simp [extend]
  | cons c run ih =>
    obtain ⟨hc, hrun⟩ := List.forall_mem_cons.1 h
    rw [List.cons_append, scanBytes, if_pos hc, ih hrun, extend_cons, List.length_cons,
      Nat.add_assoc, Nat.add_comm 1]

theorem scanBytes_of_stops (hrest : Run.Stops Char.isDigit rest)
    (hpoint : pointed = false → rest.head? ≠ some '.') :
    scanBytes offset m pointed rest = (offset, m) := by
  cases rest with
  | nil => rfl
  | cons c rest =>
    have hdigit : ¬c.isDigit = true := by rw [Run.stops_cons.1 hrest]; decide
    have hdot : ¬(c = '.' ∧ pointed = false) := by
      rintro ⟨rfl, hpointed⟩
      exact hpoint hpointed rfl
    rw [scanBytes, if_neg hdigit, if_neg hdot]

/-- The digits of a run, and the offset behind it. -/
theorem scanBytes_run (h : At text offset cs) :
    ∃ stop, At text stop (cs.dropWhile Char.isDigit) ∧
      scanBytes offset m pointed (encode cs) =
        scanBytes stop (m.extend pointed (cs.takeWhile Char.isDigit)) pointed
          (encode (cs.dropWhile Char.isDigit)) := by
  have hcs := List.takeWhile_append_dropWhile (p := Char.isDigit) (l := cs)
  have hdigits : ∀ c ∈ cs.takeWhile Char.isDigit, c.isDigit = true :=
    List.all_eq_true.1 List.all_takeWhile
  have hrun := asciiOnly_isDigit.encode_of_all hdigits
  have hstop : At text (offset + (encode (cs.takeWhile Char.isDigit)).length)
      (cs.dropWhile Char.isDigit) := At.skip (by rw [hcs]; exact h)
  refine ⟨_, hstop, ?_⟩
  conv_lhs => rw [← hcs, encode_append, hrun]
  rw [scanBytes_append hdigits, hrun]

theorem scanBytes_eq (h : At text offset cs) :
    ∃ stop, scanBytes offset ⟨[], []⟩ false (encode cs) = (stop, (scan cs).1) ∧
      At text stop (scan cs).2 := by
  obtain ⟨middle, hmiddle, hwhole⟩ := @scanBytes_run offset ⟨[], []⟩ false cs text h
  have hstops := Run.stops_dropWhile Char.isDigit cs
  unfold scan
  split
  · next rest hrest =>
    rw [hrest] at hmiddle hwhole
    obtain ⟨stop, hstop, hfraction⟩ := @scanBytes_run (middle + 1)
      ⟨cs.takeWhile Char.isDigit, []⟩ true rest text (hmiddle.skip_of_ascii (by decide))
    refine ⟨stop, ?_, hstop⟩
    rw [hwhole, encode_cons_of_ascii (by decide)]
    refine hfraction.trans (scanBytes_of_stops ?_ nofun)
    exact stops_encode asciiOnly_isDigit (Run.stops_dropWhile _ _)
  · next hpoint =>
    refine ⟨middle, ?_, hmiddle⟩
    rw [hwhole]
    refine scanBytes_of_stops (stops_encode asciiOnly_isDigit hstops) ?_
    intro _ hdot
    obtain ⟨rest, hrest⟩ := List.head?_eq_some_iff.1 ((head?_encode (by decide)).1 hdot)
    exact hpoint rest hrest

end Mantissa

namespace Decimal

/-! ### Reading -/

/-- The sign at the start of a text, and the offset behind it. -/
def signOf (text : String) : Bool × Nat :=
  if (byteChars text).head? = some '-' then (true, 1)
  else if (byteChars text).head? = some '+' then (false, 1)
  else (false, 0)

/-- Reads what is left of a text at the offset behind its mantissa. -/
def readExponentAt (text : String) (offset : Nat) : Except OffsetFault (Except Fault Int) :=
  match (byteChars text)[offset]? with
  | none => return .ok 0
  | some c =>
    if c = 'e' ∨ c = 'E' then do
      let digits ← slice text (offset + 1) text.utf8ByteSize
      match Bounded.read .long digits with
      | .ok exponent => return .ok exponent.value
      | .error _ => return .error .badExponent
    else return .error .unexpectedCharacter

/-- A decimal as it is kept. The digits start with no zero, but for zero itself. -/
structure Stored where
  negative : Bool
  digits : String
  scale : Bounded .long
  deriving DecidableEq, Repr

/-- The decimal as it is kept. -/
def stored (d : Decimal) : Stored := ⟨d.isNegative, String.ofList d.digits, d.scale⟩

/-- Keeps the digits that count. Zero has no sign. -/
def Stored.ofMantissa (negative : Bool) (m : Mantissa) (scale : Bounded .long) : Stored :=
  ⟨negative && String.ofList m.significant != "0", String.ofList m.significant, scale⟩

/-- Reads a decimal from offset to offset. -/
def readByOffset (text : String) : Except OffsetFault (Except Fault Stored) :=
  let (negative, start) := signOf text
  let (stop, mantissa) := Mantissa.scanBytes start ⟨[], []⟩ false ((byteChars text).drop start)
  if mantissa.digits = [] then return .error .noDigit
  else do
    match ← readExponentAt text stop with
    | .error fault => return .error fault
    | .ok exponent =>
      match Bounded.ofInt? .long (mantissa.fraction.length - exponent) with
      | some scale => return .ok (.ofMantissa negative mantissa scale)
      | none => return .error .exponentOutOfRange

section Reading

variable {text : String} {offset : Nat} {cs : List Char} {m : Mantissa}

theorem signOf_eq (text : String) :
    ∃ offset, signOf text = ((signed text.toList).1, offset) ∧
      At text offset (signed text.toList).2 := by
  have h := At.start text
  unfold signOf
  rw [byteChars_eq, if_congr (head?_encode (by decide)) rfl rfl,
    if_congr (head?_encode (by decide)) rfl rfl]
  generalize text.toList = cs at h ⊢
  by_cases hminus : cs.head? = some '-'
  · obtain ⟨rest, rfl⟩ := List.head?_eq_some_iff.1 hminus
    exact ⟨1, rfl, h.skip_of_ascii (by decide)⟩
  by_cases hplus : cs.head? = some '+'
  · obtain ⟨rest, rfl⟩ := List.head?_eq_some_iff.1 hplus
    exact ⟨1, rfl, h.skip_of_ascii (by decide)⟩
  have hsigned : signed cs = (false, cs) := by
    unfold signed
    split
    · exact absurd rfl hminus
    · exact absurd rfl hplus
    · rfl
  rw [hsigned, if_neg hminus, if_neg hplus]
  exact ⟨0, rfl, h⟩

theorem readExponentAt_eq (h : At text offset cs) :
    readExponentAt text offset = .ok (readExponent cs) := by
  unfold readExponentAt
  rw [← List.head?_drop, h.drop_eq]
  cases cs with
  | nil => rfl
  | cons c cs =>
    by_cases hc : c = 'e' ∨ c = 'E'
    · have hascii : c.toNat < 128 := by
        rcases hc with rfl | rfl <;> decide
      rw [encode_cons_of_ascii hascii, List.head?_cons, readExponent, if_pos hc]
      simp only [if_pos hc, (h.skip_of_ascii hascii).slice_size, Outcome.ok_bind]
      cases Bounded.read .long (String.ofList cs) <;> rfl
    · obtain ⟨b, bs, hbs⟩ := List.exists_cons_of_ne_nil (encode_ne_nil c)
      have hhead : (encode (c :: cs)).head? = some b := by
        rw [encode_cons, hbs]
        rfl
      have hb : ¬(b = 'e' ∨ b = 'E') := by
        rintro (rfl | rfl)
        · exact hc (.inl (Option.some.inj ((head?_encode (by decide)).1 hhead)))
        · exact hc (.inr (Option.some.inj ((head?_encode (by decide)).1 hhead)))
      rw [hhead, readExponent, if_neg hc]
      simp only [if_neg hb]
      rfl

theorem isDigit_of_mem_scan (cs : List Char) :
    ∀ c ∈ (Mantissa.scan cs).1.digits, c.isDigit = true := by
  have hrun : ∀ cs : List Char, ∀ c ∈ cs.takeWhile Char.isDigit, c.isDigit = true :=
    fun cs => List.all_eq_true.1 List.all_takeWhile
  unfold Mantissa.scan Mantissa.digits
  split
  · exact List.forall_mem_append.2 ⟨hrun _, hrun _⟩
  · exact List.forall_mem_append.2 ⟨hrun _, List.forall_mem_nil _⟩

theorem ofList_toDigits_eq_zero_iff (n : Nat) :
    String.ofList (Nat.toDigits 10 n) = "0" ↔ n = 0 := by
  constructor
  · intro h
    have hdigits : Nat.toDigits 10 n = ['0'] := String.ofList_injective h
    exact eq_zero_of_head_toDigits (by rw [hdigits]; rfl)
  · rintro rfl
    rfl

theorem ofMantissa_eq (negative : Bool) (scale : Bounded .long)
    (h : ∀ c ∈ m.digits, c.isDigit = true) :
    Stored.ofMantissa negative m scale =
      stored ⟨if negative then -m.coefficient else m.coefficient, scale⟩ := by
  have hdigits : (if negative then -m.coefficient else m.coefficient : Int).natAbs =
      m.coefficient := by
    cases negative <;> simp
  have hzero : (String.ofList (Nat.toDigits 10 m.coefficient) != "0") =
      decide (m.coefficient ≠ 0) := by
    rw [bne, beq_eq_decide, decide_not, decide_eq_decide.2 (ofList_toDigits_eq_zero_iff _)]
  have hnegative : (negative && decide (m.coefficient ≠ 0)) =
      decide ((if negative then -m.coefficient else m.coefficient : Int) < 0) := by
    cases negative <;> simp [Nat.pos_iff_ne_zero]
  unfold Stored.ofMantissa stored digits isNegative
  rw [Mantissa.significant_eq h, hzero, hnegative]
  simp only [hdigits]

theorem readByOffset_eq (text : String) :
    readByOffset text = .ok ((read text).map stored) := by
  obtain ⟨start, hsign, hstart⟩ := signOf_eq text
  obtain ⟨stop, hscan, hstop⟩ := Mantissa.scanBytes_eq hstart
  have hdigits := isDigit_of_mem_scan (signed text.toList).2
  unfold readByOffset read
  simp only [hsign, hstart.drop_eq, hscan, readExponentAt_eq hstop, Outcome.ok_bind]
  by_cases hnil : (Mantissa.scan (signed text.toList).2).1.digits = []
  · rw [if_pos hnil, if_pos hnil]
    rfl
  rw [if_neg hnil, if_neg hnil]
  cases readExponent (Mantissa.scan (signed text.toList).2).2 with
  | error fault => rfl
  | ok exponent =>
    simp only
    cases Bounded.ofInt? .long _ with
    | none => rfl
    | some scale =>
      have hstored := ofMantissa_eq (signed text.toList).1 scale hdigits
      exact congrArg (fun d => Except.ok (Except.ok d)) hstored

end Reading

/-! ### Writing -/

/-- Digits with a point before the last `scale` of them. -/
def Stored.plain (digits : String) (scale : Nat) : Except OffsetFault String :=
  let size := digits.utf8ByteSize
  if scale = 0 then return digits
  else if scale < size then do
    let point ← distance scale size
    let (whole, fraction) ← splitAt digits point
    return whole ++ "." ++ fraction
  else do
    let zeros ← distance size scale
    return "0." ++ String.ofList (List.replicate zeros '0') ++ digits

/-- Digits with a point after the first, where there are others. -/
def Stored.pointed (digits : String) : Except OffsetFault String := do
  let (first, rest) ← splitAt digits 1
  return if rest = "" then first else first ++ "." ++ rest

/-- Writes a decimal that is kept. -/
def Stored.write (d : Stored) : Except OffsetFault String := do
  let adjusted : Int := d.digits.utf8ByteSize - 1 - d.scale.value
  let sign := if d.negative then "-" else ""
  if 0 ≤ d.scale.value ∧ -6 ≤ adjusted then
    let digits ← Stored.plain d.digits d.scale.value.toNat
    return sign ++ digits
  else
    let digits ← Stored.pointed d.digits
    return sign ++ digits ++ String.ofList (exponentText adjusted)

section Writing

variable {digits : List Char}

theorem utf8ByteSize_ofList (h : ∀ c ∈ digits, c.isDigit = true) :
    (String.ofList digits).utf8ByteSize = digits.length := by
  rw [← length_encode, asciiOnly_isDigit.encode_of_all h]

theorem splitAt_digits (h : ∀ c ∈ digits, c.isDigit = true) {k : Nat} (hk : k ≤ digits.length) :
    splitAt (String.ofList digits) k =
      .ok (String.ofList (digits.take k), String.ofList (digits.drop k)) := by
  have htake : encode (digits.take k) = digits.take k :=
    asciiOnly_isDigit.encode_of_all fun c hc => h c (List.mem_of_mem_take hc)
  have hsplit := splitAt_append (digits.take k) (digits.drop k)
  rw [htake, List.take_append_drop, List.length_take, Nat.min_eq_left hk] at hsplit
  exact hsplit

theorem plain_eq (h : ∀ c ∈ digits, c.isDigit = true) (scale : Nat) :
    Stored.plain (String.ofList digits) scale = .ok (String.ofList (plainDigits digits scale)) := by
  unfold Stored.plain plainDigits
  simp only [utf8ByteSize_ofList h]
  by_cases hzero : scale = 0
  · rw [if_pos hzero, if_pos hzero]
    rfl
  rw [if_neg hzero, if_neg hzero]
  by_cases hlt : scale < digits.length
  · have hpoint : distance scale digits.length = .ok (digits.length - scale) :=
      if_pos (Nat.le_of_lt hlt)
    rw [if_pos hlt, if_pos hlt, hpoint, Outcome.ok_bind, splitAt_digits h (Nat.sub_le _ _)]
    refine congrArg Except.ok (String.toList_inj.1 ?_)
    simp
  · have hzeros : distance digits.length scale = .ok (scale - digits.length) :=
      if_pos (Nat.not_lt.1 hlt)
    rw [if_neg hlt, if_neg hlt, hzeros]
    refine congrArg Except.ok (String.toList_inj.1 ?_)
    simp

theorem pointed_eq (h : ∀ c ∈ digits, c.isDigit = true) (hne : digits ≠ []) :
    Stored.pointed (String.ofList digits) = .ok (String.ofList (pointed digits)) := by
  rw [Stored.pointed, splitAt_digits h (List.length_pos_iff.2 hne)]
  refine congrArg Except.ok ?_
  match digits with
  | [] => exact absurd rfl hne
  | [d] => rfl
  | d :: e :: ds =>
    refine String.toList_inj.1 ?_
    simp [pointed]

theorem write_stored (d : Decimal) : d.stored.write = .ok d.text := by
  have hsize : d.stored.digits.utf8ByteSize = d.digits.length :=
    utf8ByteSize_ofList d.isDigit_of_mem_digits
  have hplain := plain_eq d.isDigit_of_mem_digits d.scale.value.toNat
  have hpointed := pointed_eq d.isDigit_of_mem_digits d.digits_ne_nil
  have hadjusted : (d.stored.digits.utf8ByteSize : Int) - 1 - d.stored.scale.value =
      d.adjustedExponent := by
    rw [hsize]
    rfl
  have hsign : (if d.stored.negative then "-" else "") =
      String.ofList (if d.isNegative then ['-'] else []) := by
    show (if d.isNegative then "-" else "") = _
    split <;> rfl
  have hform : d.isPlain = true ↔ 0 ≤ d.stored.scale.value ∧ -6 ≤ d.adjustedExponent := by
    rw [isPlain, Bool.and_eq_true, decide_eq_true_eq, decide_eq_true_eq]
    rfl
  unfold Stored.write text unsignedText
  simp only [hadjusted, hsign, ← hform, String.ofList_append]
  by_cases h : d.isPlain = true
  · rw [if_pos h, if_pos h]
    exact congrArg (· >>= _) hplain
  · rw [if_neg h, if_neg h, String.ofList_append, ← String.append_assoc]
    exact congrArg (· >>= _) hpointed

end Writing

end Decimal

end Numeral

/-! ### All readers -/

/-- **Reading by offset.** A cut is made only at offsets that are in order, in the text and between
two characters, and a difference of sizes is taken only where it is not negative. With nothing else,
the readers of paths, of placeholders and of decimals and the writer of decimals come to a result on
every input. It is the result that characters lead to. -/
theorem Text.read_by_offset :
    (∀ text start stop piece, slice text start stop = .ok piece ↔
      (start ≤ stop ∧ stop ≤ text.utf8ByteSize) ∧
        (String.Pos.Raw.IsValid text ⟨start⟩ ∧ String.Pos.Raw.IsValid text ⟨stop⟩) ∧
        piece.toByteArray = text.toByteArray.extract start stop) ∧
    (∀ text offset found, suffix text offset = .ok found ↔
      offset ≤ text.utf8ByteSize ∧ String.Pos.Raw.IsValid text ⟨offset⟩ ∧
        found = (byteChars text).drop offset) ∧
    (∀ start stop n, distance start stop = .ok n ↔ stop = start + n) ∧
    (∀ path, Path.segmentsByOffset path = .ok (Path.segments path)) ∧
    (∀ segment, Placeholder.ofTextByOffset segment = .ok (Placeholder.ofText? segment)) ∧
    (∀ text, Numeral.Decimal.readByOffset text =
      .ok ((Numeral.Decimal.read text).map Numeral.Decimal.stored)) ∧
    ∀ d : Numeral.Decimal, d.stored.write = .ok d.text := by
  refine ⟨?_, ?_, ?_, Path.segmentsByOffset_eq, Placeholder.ofTextByOffset_eq,
    Numeral.Decimal.readByOffset_eq, Numeral.Decimal.write_stored⟩
  · exact fun text start stop piece => slice_eq_ok_iff
  · exact fun text offset found => suffix_eq_ok_iff
  · exact fun start stop n => distance_eq_ok_iff

end TypedRouting
