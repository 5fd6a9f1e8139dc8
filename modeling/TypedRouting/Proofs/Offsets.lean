import TypedRouting.Proofs.LetterCase
import TypedRouting.Proofs.Runs

/-!
# Texts cut at byte offsets

A reader that goes over the bytes of a text cuts it at offsets. `Text.slice` does so with a check:
the offsets have to be in order, in the text, and between two characters of it. A reader that makes
all its cuts in this way and comes to a result has never left the text or split a character.

* `Text.slice_eq_ok_iff`: when a cut is made, and the bytes that it yields.
* `Text.takeWhile_encode`: bytes are looked at as the characters of their numbers, and a run of
  ASCII characters is the same run in the bytes.
* `Text.At`: the offset lies before given characters. What a reader does there it does to them.
-/

namespace TypedRouting

/-- Why a text cannot be cut. -/
inductive OffsetFault
  | reversed
  | beyond
  | insideCharacter
  | negative
  deriving DecidableEq, Repr

namespace Text

/-! ### Cuts -/

/-- The part of a text from one offset up to another. -/
def slice (text : String) (start stop : Nat) : Except OffsetFault String :=
  if stop < start then .error .reversed
  else if text.utf8ByteSize < stop then .error .beyond
  else if h : String.Pos.Raw.IsValid text ⟨start⟩ ∧ String.Pos.Raw.IsValid text ⟨stop⟩ then
    .ok (text.extract (text.pos ⟨start⟩ h.1) (text.pos ⟨stop⟩ h.2))
  else .error .insideCharacter

/-- The two parts of a text, cut at an offset. -/
def splitAt (text : String) (offset : Nat) : Except OffsetFault (String × String) := do
  let before ← slice text 0 offset
  let after ← slice text offset text.utf8ByteSize
  return (before, after)

/-- The number of bytes from one offset to another. -/
def distance (start stop : Nat) : Except OffsetFault Nat :=
  if start ≤ stop then .ok (stop - start) else .error .negative

/-- The bytes of a text, each as the character of its number. -/
def byteChars (text : String) : List Char := (bytes text).map Char.ofUInt8

/-- The bytes of a text from an offset on, which is checked like that of a cut. -/
def suffix (text : String) (offset : Nat) : Except OffsetFault (List Char) :=
  if text.utf8ByteSize < offset then .error .beyond
  else if String.Pos.Raw.IsValid text ⟨offset⟩ then .ok ((byteChars text).drop offset)
  else .error .insideCharacter

section Slice

variable {text before piece after : String} {start stop : Nat}

theorem isValid_of_append (before after : String) :
    String.Pos.Raw.IsValid (before ++ after) ⟨before.utf8ByteSize⟩ :=
  String.Pos.Raw.isValid_iff_exists_append.2 ⟨before, after, rfl, rfl⟩

/-- When a cut is made, and the bytes that it yields. -/
theorem slice_eq_ok_iff :
    slice text start stop = .ok piece ↔
      (start ≤ stop ∧ stop ≤ text.utf8ByteSize) ∧
        (String.Pos.Raw.IsValid text ⟨start⟩ ∧ String.Pos.Raw.IsValid text ⟨stop⟩) ∧
        piece.toByteArray = text.toByteArray.extract start stop := by
  unfold slice
  by_cases hle : stop < start
  · rw [if_pos hle]
    exact iff_of_false nofun fun h => absurd h.1.1 (Nat.not_le.2 hle)
  by_cases hsize : text.utf8ByteSize < stop
  · rw [if_neg hle, if_pos hsize]
    exact iff_of_false nofun fun h => absurd h.1.2 (Nat.not_le.2 hsize)
  rw [if_neg hle, if_neg hsize]
  split
  · next hvalid =>
    rw [Except.ok.injEq, ← String.toByteArray_inj, String.toByteArray_extract]
    exact ⟨fun h => ⟨⟨Nat.not_lt.1 hle, Nat.not_lt.1 hsize⟩, hvalid, h.symm⟩, fun h => h.2.2.symm⟩
  · next hvalid => exact iff_of_false nofun fun h => hvalid h.2.1

theorem slice_append (before piece after : String) :
    slice (before ++ piece ++ after) before.utf8ByteSize
      (before.utf8ByteSize + piece.utf8ByteSize) = .ok piece := by
  have hstart := isValid_of_append before (piece ++ after)
  have hstop := isValid_of_append (before ++ piece) after
  rw [← String.append_assoc] at hstart
  rw [String.utf8ByteSize_append] at hstop
  refine slice_eq_ok_iff.2 ⟨⟨Nat.le_add_right _ _, ?_⟩, ⟨hstart, hstop⟩, ?_⟩
  · rw [String.utf8ByteSize_append, String.utf8ByteSize_append]
    omega
  · rw [String.append_assoc, String.toByteArray_append, String.toByteArray_append,
      ← String.size_toByteArray, ← String.size_toByteArray]
    symm
    exact (ByteArray.extract_append_size_add (i := 0)).trans (ByteArray.extract_append_eq_left rfl)

theorem suffix_eq_ok_iff {offset : Nat} {found : List Char} :
    suffix text offset = .ok found ↔
      offset ≤ text.utf8ByteSize ∧ String.Pos.Raw.IsValid text ⟨offset⟩ ∧
        found = (byteChars text).drop offset := by
  unfold suffix
  by_cases hsize : text.utf8ByteSize < offset
  · rw [if_pos hsize]
    exact iff_of_false nofun fun h => absurd h.1 (Nat.not_le.2 hsize)
  rw [if_neg hsize]
  by_cases hvalid : String.Pos.Raw.IsValid text ⟨offset⟩
  · rw [if_pos hvalid, Except.ok.injEq]
    exact ⟨fun h => ⟨Nat.not_lt.1 hsize, hvalid, h.symm⟩, fun h => h.2.2.symm⟩
  · rw [if_neg hvalid]
    exact iff_of_false nofun fun h => hvalid h.2.1

theorem distance_eq_ok_iff {n : Nat} : distance start stop = .ok n ↔ stop = start + n := by
  unfold distance
  by_cases hle : start ≤ stop
  · rw [if_pos hle, Except.ok.injEq]
    omega
  · rw [if_neg hle]
    exact iff_of_false nofun (by omega)

end Slice

/-- An offset inside a character is refused. -/
example : slice "aéb" 1 3 = .ok "é" ∧ slice "aéb" 1 2 = .error .insideCharacter := by
  decide

/-! ### Bytes looked at as characters -/

/-- The bytes of characters, each as the character of its number. -/
def encode (cs : List Char) : List Char := (cs.flatMap String.utf8EncodeChar).map Char.ofUInt8

/-- Only ASCII characters pass the test. -/
def AsciiOnly (test : Char → Bool) : Prop := ∀ c, test c = true → c.toNat < 128

section Encode

variable {c : Char} {cs ds : List Char} {test : Char → Bool}

theorem asciiOnly_beq (hc : c.toNat < 128) : AsciiOnly (· == c) := by
  intro d hd
  rw [beq_iff_eq.1 hd]
  exact hc

theorem byteChars_eq (text : String) : byteChars text = encode text.toList := by
  rw [byteChars, bytes_eq_flatMap, encode]

theorem length_byteChars (text : String) : (byteChars text).length = text.utf8ByteSize := by
  rw [byteChars, List.length_map, ← String.size_toByteArray]
  rfl

theorem length_encode (cs : List Char) : (encode cs).length = (String.ofList cs).utf8ByteSize := by
  rw [← length_byteChars, byteChars_eq, String.toList_ofList]

theorem encode_append (cs ds : List Char) : encode (cs ++ ds) = encode cs ++ encode ds := by
  rw [encode, List.flatMap_append, List.map_append, encode, encode]

theorem encode_cons (c : Char) (cs : List Char) : encode (c :: cs) = encode [c] ++ encode cs :=
  encode_append [c] cs

theorem toNat_ofUInt8 (b : UInt8) : (Char.ofUInt8 b).toNat = b.toNat := rfl

theorem encode_of_ascii (h : c.toNat < 128) : encode [c] = [c] := by
  have hvalue : c.val.toNat ≤ 127 := Nat.le_of_lt_succ h
  have hbytes : String.utf8EncodeChar c = [UInt8.ofNat c.toNat] := if_pos hvalue
  have hchar : Char.ofUInt8 (UInt8.ofNat c.toNat) = c := by
    rw [← Char.toNat_inj, toNat_ofUInt8, UInt8.toNat_ofNat_of_lt' (by show _ < 256; omega)]
  rw [encode, List.flatMap_singleton, hbytes, List.map_singleton, hchar]

/-- No byte of a character that is not ASCII is an ASCII character. -/
theorem le_toNat_of_mem_encode (h : ¬c.toNat < 128) {b : Char} (hb : b ∈ encode [c]) :
    128 ≤ b.toNat := by
  have hvalue : ¬c.val.toNat ≤ 127 := fun hle => h (Nat.lt_succ_of_le hle)
  rw [encode, List.flatMap_singleton] at hb
  obtain ⟨byte, hbyte, rfl⟩ := List.mem_map.1 hb
  rw [toNat_ofUInt8]
  unfold String.utf8EncodeChar at hbyte
  simp only [if_neg hvalue] at hbyte
  -- two, three or four bytes, and each has its highest bit set
  split at hbyte
  · simp only [List.mem_cons, List.not_mem_nil, or_false] at hbyte
    rcases hbyte with rfl | rfl <;> rw [UInt8.toNat_ofNat'] <;> omega
  · split at hbyte
    · simp only [List.mem_cons, List.not_mem_nil, or_false] at hbyte
      rcases hbyte with rfl | rfl | rfl <;> rw [UInt8.toNat_ofNat'] <;> omega
    · simp only [List.mem_cons, List.not_mem_nil, or_false] at hbyte
      rcases hbyte with rfl | rfl | rfl | rfl <;> rw [UInt8.toNat_ofNat'] <;> omega

theorem encode_of_all_ascii (h : ∀ c ∈ cs, c.toNat < 128) : encode cs = cs := by
  induction cs with
  | nil => rfl
  | cons c cs ih =>
    obtain ⟨hc, hcs⟩ := List.forall_mem_cons.1 h
    rw [encode_cons, encode_of_ascii hc, ih hcs]
    rfl

theorem encode_cons_of_ascii (h : c.toNat < 128) : encode (c :: cs) = c :: encode cs := by
  rw [encode_cons, encode_of_ascii h]
  rfl

theorem AsciiOnly.encode_of_all (htest : AsciiOnly test) (h : ∀ c ∈ cs, test c = true) :
    encode cs = cs :=
  encode_of_all_ascii fun c hc => htest c (h c hc)

theorem not_of_mem_encode (htest : AsciiOnly test) (hc : test c = false) :
    ∀ b ∈ encode [c], test b = false := by
  intro b hb
  rw [← Bool.not_eq_true]
  intro htrue
  by_cases hascii : c.toNat < 128
  · rw [encode_of_ascii hascii, List.mem_singleton] at hb
    rw [hb, hc] at htrue
    cases htrue
  · exact absurd (htest b htrue) (Nat.not_lt.2 (le_toNat_of_mem_encode hascii hb))

theorem encode_ne_nil (c : Char) : encode [c] ≠ [] := by
  rw [encode, List.flatMap_singleton, Ne, List.map_eq_nil_iff]
  exact String.utf8EncodeChar_ne_nil

theorem length_encode_pos_iff : 0 < (encode cs).length ↔ cs ≠ [] := by
  cases cs with
  | nil => exact iff_of_false (Nat.lt_irrefl 0) (fun h => h rfl)
  | cons c cs =>
    refine iff_of_true ?_ (List.cons_ne_nil c cs)
    have hpos := List.length_pos_iff.2 (encode_ne_nil c)
    rw [encode_cons, List.length_append]
    omega

/-- Bytes that follow a run stop it where the characters do. -/
theorem stops_encode (htest : AsciiOnly test) (h : Run.Stops test cs) :
    Run.Stops test (encode cs) := by
  cases cs with
  | nil => exact Run.stops_nil
  | cons c cs =>
    obtain ⟨b, bs, hbs⟩ := List.exists_cons_of_ne_nil (encode_ne_nil c)
    have hb : b ∈ encode [c] := hbs ▸ List.mem_cons_self
    rw [encode_cons, hbs, List.cons_append]
    exact Run.stops_cons.2 (not_of_mem_encode htest (Run.stops_cons.1 h) b hb)

/-- A run of ASCII characters is the same run in the bytes. -/
theorem takeWhile_encode (htest : AsciiOnly test) (cs : List Char) :
    (encode cs).takeWhile test = cs.takeWhile test := by
  obtain ⟨hcs, hrun, hstops⟩ := (@Run.span_iff _ test _ _ cs).1 ⟨rfl, rfl⟩
  have hbytes : encode cs = cs.takeWhile test ++ encode (cs.dropWhile test) := by
    conv_lhs => rw [hcs, encode_append, htest.encode_of_all hrun]
  rw [hbytes, Run.takeWhile_append hrun (stops_encode htest hstops)]

theorem head?_encode (hc : c.toNat < 128) : (encode cs).head? = some c ↔ cs.head? = some c := by
  cases cs with
  | nil => rfl
  | cons d cs =>
    by_cases hd : d.toNat < 128
    · rw [encode_cons_of_ascii hd]
      rfl
    · obtain ⟨b, bs, hbs⟩ := List.exists_cons_of_ne_nil (encode_ne_nil d)
      have hb : 128 ≤ b.toNat := le_toNat_of_mem_encode hd (hbs ▸ List.mem_cons_self)
      rw [encode_cons, hbs]
      refine iff_of_false ?_ ?_
      · rintro ⟨⟩
        omega
      · rintro ⟨⟩
        exact hd hc

/-- The bytes start with an ASCII word where the characters do. -/
theorem prefix_encode_iff {word : List Char} (hword : ∀ c ∈ word, c.toNat < 128) :
    word <+: encode cs ↔ word <+: cs := by
  induction word generalizing cs with
  | nil => simp
  | cons c word ih =>
    obtain ⟨hc, hword⟩ := List.forall_mem_cons.1 hword
    cases cs with
    | nil => exact Iff.rfl
    | cons d cs =>
      by_cases hd : d.toNat < 128
      · rw [encode_cons_of_ascii hd, List.cons_prefix_cons, List.cons_prefix_cons, ih hword]
      · have hne : (d :: cs).head? ≠ some c := by
          rintro ⟨⟩
          exact hd hc
        refine iff_of_false ?_ ?_
        · rintro ⟨rest, hrest⟩
          exact hne ((head?_encode hc).1 (hrest ▸ rfl))
        · rintro ⟨rest, hrest⟩
          exact hne (hrest ▸ rfl)

end Encode

/-! ### Offsets before characters -/

/-- The offset lies before the last characters of the text, which are given. -/
def At (text : String) (offset : Nat) (rest : List Char) : Prop :=
  ∃ before : String, text = before ++ String.ofList rest ∧ offset = before.utf8ByteSize

namespace At

variable {text : String} {offset : Nat} {run rest : List Char} {test : Char → Bool} {c : Char}

theorem start (text : String) : At text 0 text.toList :=
  ⟨"", by rw [String.ofList_toList, String.empty_append], rfl⟩

/-- The offset behind some of the characters. -/
theorem skip (h : At text offset (run ++ rest)) :
    At text (offset + (encode run).length) rest := by
  obtain ⟨before, rfl, rfl⟩ := h
  refine ⟨before ++ String.ofList run, ?_, ?_⟩
  · rw [String.ofList_append, String.append_assoc]
  · rw [String.utf8ByteSize_append, length_encode]

theorem skip_of_ascii (h : At text offset (c :: rest)) (hc : c.toNat < 128) :
    At text (offset + 1) rest := by
  have hskip : At text (offset + (encode [c]).length) rest := skip h
  rw [encode_of_ascii hc] at hskip
  exact hskip

theorem size_eq (h : At text offset rest) :
    text.utf8ByteSize = offset + (encode rest).length := by
  obtain ⟨before, rfl, rfl⟩ := h
  rw [String.utf8ByteSize_append, length_encode]

theorem lt_size_iff (h : At text offset rest) : offset < text.utf8ByteSize ↔ rest ≠ [] := by
  rw [h.size_eq, Nat.lt_add_right_iff_pos, length_encode_pos_iff]

theorem isValid (h : At text offset rest) : String.Pos.Raw.IsValid text ⟨offset⟩ := by
  obtain ⟨before, rfl, rfl⟩ := h
  exact isValid_of_append before _

/-- The bytes from the offset on. -/
theorem drop_eq (h : At text offset rest) : (byteChars text).drop offset = encode rest := by
  obtain ⟨before, rfl, rfl⟩ := h
  rw [byteChars_eq, String.toList_append, encode_append, ← byteChars_eq, ← length_byteChars,
    List.drop_left, String.toList_ofList]

theorem suffix_eq (h : At text offset rest) : suffix text offset = .ok (encode rest) := by
  have hle : ¬text.utf8ByteSize < offset := by
    have hsize := h.size_eq
    omega
  rw [suffix, if_neg hle, if_pos h.isValid, h.drop_eq]

theorem slice_eq (h : At text offset (run ++ rest)) :
    slice text offset (offset + (encode run).length) = .ok (String.ofList run) := by
  obtain ⟨before, rfl, rfl⟩ := h
  rw [String.ofList_append, ← String.append_assoc, length_encode]
  exact slice_append before (String.ofList run) (String.ofList rest)

theorem slice_size (h : At text offset rest) :
    slice text offset text.utf8ByteSize = .ok (String.ofList rest) := by
  have hend : At text offset (rest ++ []) := by
    rw [List.append_nil]
    exact h
  rw [h.size_eq]
  exact hend.slice_eq

end At

theorem splitAt_append (before after : List Char) :
    splitAt (String.ofList (before ++ after)) (encode before).length =
      .ok (String.ofList before, String.ofList after) := by
  have h := At.start (String.ofList (before ++ after))
  rw [String.toList_ofList] at h
  have hbefore := h.slice_eq
  have hafter := h.skip.slice_size
  rw [Nat.zero_add] at hbefore hafter
  rw [splitAt, hbefore, hafter]
  rfl

end Text
end TypedRouting
