/-!
# Paths and their segments

A path is a text whose segments are the non-empty pieces between slashes, so leading, trailing
and repeated slashes carry no meaning. `Path.segments` takes a path apart and `Path.join` writes
the normal form: one slash before each segment, and `/` alone where there is none.
-/

namespace TypedRouting
namespace Path

/-- The pieces of a text between slashes, empty ones included. -/
def pieces : List Char → List (List Char)
  | [] => [[]]
  | c :: cs =>
    if c = '/' then [] :: pieces cs
    else
      match pieces cs with
      | [] => [[c]]
      | p :: ps => (c :: p) :: ps

/-- The segments of a path: its non-empty pieces, in order. -/
def segments (path : String) : List String :=
  ((pieces path.toList).filter (!·.isEmpty)).map String.ofList

/-- The normal form of a list of segments. -/
def join : List String → String
  | [] => "/"
  | parts => String.ofList (parts.flatMap ('/' :: ·.toList))

/-! ### First laws of the pieces -/

theorem pieces_ne_nil (cs : List Char) : pieces cs ≠ [] := by
  cases cs with
  | nil => simp [pieces]
  | cons c cs =>
    simp only [pieces]
    split
    · simp
    · split <;> simp

/-- A slash between two texts separates their pieces. -/
theorem pieces_append_slash (p q : List Char) :
    pieces (p ++ '/' :: q) = pieces p ++ pieces q := by
  induction p with
  | nil => simp [pieces]
  | cons c p ih =>
    simp only [List.cons_append, pieces, ih]
    split
    · rfl
    · cases h : pieces p with
      | nil => exact absurd h (pieces_ne_nil p)
      | cons x xs => rfl

end Path
end TypedRouting
