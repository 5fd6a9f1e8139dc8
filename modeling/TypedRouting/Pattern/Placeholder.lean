/-!
# Placeholders

A segment of a declared path is a placeholder if it has one of five forms, where `T` is a run of
ASCII letters and digits and `L` a run of those, `_` and `-`:

* `{T}`, `{T L}` and `{T} L` for one value;
* `{T...} L` and `{T... L}` for an array, blanks allowed before the dots and `L` optional.

Every other segment is literal text. `Placeholder.ofText?` tells which.
-/

namespace TypedRouting

/-- A placeholder as it is declared. -/
structure Placeholder where
  token : String
  array : Bool
  label : Option String
  deriving DecidableEq, Repr

namespace Placeholder

def isTokenChar (c : Char) : Bool := c.isAlphanum

def isLabelChar (c : Char) : Bool := c.isAlphanum || c == '_' || c == '-'

def skipBlanks (cs : List Char) : List Char := cs.dropWhile (· == ' ')

/-- A label, or none where the run is empty. -/
def labelOf (cs : List Char) : Option String :=
  if cs.isEmpty then none else some (String.ofList cs)

/-- Reads a label, possibly empty, up to the brace that ends the segment. -/
def enclosedLabel? (cs : List Char) : Option (List Char) :=
  if cs.dropWhile isLabelChar = ['}'] then some (cs.takeWhile isLabelChar) else none

/-- Reads a label, possibly empty, up to the end of the segment. -/
def trailingLabel? (cs : List Char) : Option (List Char) :=
  if cs.all isLabelChar then some cs else none

/-- Reads a label that is not empty. -/
def present (label : Option (List Char)) : Option (List Char) :=
  label.filter (!·.isEmpty)

/-- Reads the rest of an array placeholder, after the dots. -/
def afterDots? : List Char → Option (List Char)
  | '}' :: rest => trailingLabel? (skipBlanks rest)
  | ' ' :: rest => enclosedLabel? (skipBlanks rest)
  | _ => none

/-- Reads the rest of a placeholder for one value, after its token. -/
def afterToken? : List Char → Option (List Char)
  | ['}'] => some []
  | '}' :: ' ' :: rest => present (trailingLabel? (skipBlanks rest))
  | ' ' :: rest => present (enclosedLabel? (skipBlanks rest))
  | _ => none

/-- Reads what follows the token of a placeholder: the array flag and the label. -/
def afterName? (cs : List Char) : Option (Bool × List Char) :=
  match skipBlanks cs with
  | '.' :: '.' :: '.' :: rest => (afterDots? rest).map (true, ·)
  | _ => (afterToken? cs).map (false, ·)

/-- Reads the characters of a segment. -/
def ofChars? : List Char → Option Placeholder
  | '{' :: cs =>
    let token := cs.takeWhile isTokenChar
    if token.isEmpty then none
    else (afterName? (cs.dropWhile isTokenChar)).map fun (array, label) =>
      ⟨String.ofList token, array, labelOf label⟩
  | _ => none

/-- The placeholder that a segment declares, or none where the segment is literal text. -/
def ofText? (segment : String) : Option Placeholder := ofChars? segment.toList

end Placeholder
end TypedRouting
