/-!
# Blank characters

The characters that count as blank are those of the Unicode property
`White_Space`.  Trimming, word splitting and the layout of manifest lines all
use this one class.
-/

namespace LockBench
namespace Text

/-- A character of the Unicode property `White_Space`. -/
def isBlank (c : Char) : Bool :=
  let code := c.toNat
  (0x09 ≤ code && code ≤ 0x0D) || code == 0x20 || code == 0x85 ||
    code == 0xA0 || code == 0x1680 || (0x2000 ≤ code && code ≤ 0x200A) ||
    code == 0x2028 || code == 0x2029 || code == 0x202F || code == 0x205F ||
    code == 0x3000

/-- The characters from the first one that is not blank. -/
def dropBlank (chars : List Char) : List Char :=
  chars.dropWhile isBlank

/-- The characters between the blanks at either end. -/
def trimBlank (chars : List Char) : List Char :=
  (dropBlank (dropBlank chars).reverse).reverse

@[simp] theorem dropBlank_nil : dropBlank [] = [] := rfl

@[simp] theorem trimBlank_nil : trimBlank [] = [] := rfl

/-- A text without the blanks at either end. -/
def trim (text : String) : String :=
  String.ofList (trimBlank text.toList)

/-- The first maximal run of characters that are not blank; empty when there
is none. -/
def firstWord (text : String) : String :=
  String.ofList ((dropBlank text.toList).takeWhile fun c => !isBlank c)

end Text
end LockBench
