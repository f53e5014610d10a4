import Statechart.Text.CodePoints

/-!
# White space

The Unicode property White_Space, and the trimming of texts by it.
-/

namespace Statechart.Text

/-- The code points with the property White_Space. -/
def whiteRanges : Ranges :=
  [(0x9, 0xD), (0x20, 0x20), (0x85, 0x85), (0xA0, 0xA0), (0x1680, 0x1680), (0x2000, 0x200A),
   (0x2028, 0x2029), (0x202F, 0x202F), (0x205F, 0x205F), (0x3000, 0x3000)]

/-- Whether the character is white space. -/
def isWhite (c : Char) : Bool := whiteRanges.covers c

/-- The text without the characters at its start that satisfy the predicate, and
likewise at its end. -/
def trimBy (drop : Char → Bool) (cs : List Char) : List Char :=
  ((cs.dropWhile drop).reverse.dropWhile drop).reverse

/-- The text without white space at its start. -/
def trimStart (cs : List Char) : List Char := cs.dropWhile isWhite

/-- The text without white space at its end. -/
def trimEnd (cs : List Char) : List Char := (cs.reverse.dropWhile isWhite).reverse

/-- The text without white space at either end. -/
def trimChars (cs : List Char) : List Char := trimBy isWhite cs

/-- The string without white space at either end. -/
def trim (s : String) : String := String.ofList (trimChars s.toList)

/-- Whether the text holds nothing but white space. -/
def isBlank (cs : List Char) : Bool := cs.all isWhite

end Statechart.Text
