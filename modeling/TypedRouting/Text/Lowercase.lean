import TypedRouting.Text.Ascii
import TypedRouting.Text.CaseTables

/-!
# Lower case

`Text.lowercase` is the full lower-case mapping of a text. Two characters need more than a
table: `İ` becomes `i` with a dot above, and `Σ` becomes `ς` at the end of a word and `σ`
elsewhere, where a word ends at `Σ` if a cased character comes before it and none after it,
case-ignorable characters apart. `Text.lowersTo` compares with a text that is lower-case
already, with a short cut for ASCII.
-/

namespace TypedRouting
namespace Text

def isCased (c : Char) : Bool := inRanges casedRanges c.toNat

def isCaseIgnorable (c : Char) : Bool := inRanges caseIgnorableRanges c.toNat

/-- The simple lower-case form of a character: the character itself where no run covers it. -/
def lowerSimple (c : Char) : Char :=
  match runOf? lowerRuns c.toNat with
  | some run => Char.ofNat (c.toNat + run.shift).toNat
  | none => c

/-- The lower-case form of a character that does not depend on its neighbours. -/
def lowerChar (c : Char) : List Char :=
  if c = 'İ' then ['i', '\u0307'] else [lowerSimple c]

/-- The first character that is not case-ignorable is cased. -/
def meetsCased (cs : List Char) : Bool :=
  ((cs.dropWhile isCaseIgnorable).head?).any isCased

/-- A word ends between `before` (nearest character first) and `after`. -/
def endsWord (before after : List Char) : Bool :=
  meetsCased before && !meetsCased after

/-- The lower-case form of a text that follows `before` (nearest character first). -/
def lowerAfter (before : List Char) : List Char → List Char
  | [] => []
  | c :: rest =>
    (if c = 'Σ' then [if endsWord before rest then 'ς' else 'σ'] else lowerChar c)
      ++ lowerAfter (c :: before) rest

def lowercase (text : String) : String :=
  String.ofList (lowerAfter [] text.toList)

/-- `text` in lower case is `lowered`. An ASCII text needs no table: its bytes are compared. -/
def lowersTo (text lowered : String) : Bool :=
  if isAscii text then bytesLowerTo text lowered else lowercase text == lowered

end Text
end TypedRouting
