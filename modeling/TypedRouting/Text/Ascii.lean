/-!
# The ASCII letters

Case-insensitive words (`true`, `inf`, …) compare the ASCII letters only; any other character
stands for itself. Two texts can be compared in this way by their bytes too.
-/

namespace TypedRouting
namespace Text

def isAscii (text : String) : Bool :=
  text.toList.all (·.toNat < 128)

/-- The text with its ASCII capitals in lower case. -/
def asciiLower (text : String) : String :=
  String.ofList (text.toList.map Char.toLower)

/-- `text` spells the lower-case `word`, in any case of its ASCII letters. -/
def spells (text word : String) : Bool :=
  asciiLower text == word

/-- The bytes of a text in UTF-8. -/
def bytes (text : String) : List UInt8 := text.toByteArray.data.toList

/-- `lowered` has as many bytes as `text`, and each is that of `text` with an ASCII capital in lower
case. -/
def bytesLowerTo (text lowered : String) : Bool :=
  (bytes lowered).length == (bytes text).length &&
    ((bytes lowered).zip (bytes text)).all fun (l, b) => l == b.toAsciiLower

@[simp]
theorem toList_asciiLower (text : String) :
    (asciiLower text).toList = text.toList.map Char.toLower := by
  simp [asciiLower]

end Text
end TypedRouting
