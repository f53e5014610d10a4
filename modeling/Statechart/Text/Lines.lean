import Statechart.Text.White

/-!
# Lines and bytes

A text is cut into lines at line feeds; a carriage return right before the line feed belongs to the
line break, and a last line without a line feed counts as a line unless it is empty. Indentation is
measured in bytes of the UTF-8 form, so a cut can fall inside a character; such a cut has no result.
-/

namespace Statechart.Text

/-- The line whose characters, latest first, were read up to a line feed. -/
def closeLine : List Char → List Char
  | '\r' :: line => line.reverse
  | line => line.reverse

/-- The lines of a text, given the characters already read of the first one, latest first. -/
def linesAfter (line : List Char) : List Char → List (List Char)
  | [] => if line.isEmpty then [] else [line.reverse]
  | c :: rest =>
    if c == '\n' then closeLine line :: linesAfter [] rest else linesAfter (c :: line) rest

/-- The lines of a text. -/
def lines (cs : List Char) : List (List Char) := linesAfter [] cs

/-- The text without line feeds and carriage returns at either end. -/
def trimBreaks (cs : List Char) : List Char := trimBy (fun c => c == '\n' || c == '\r') cs

/-- The number of bytes in the UTF-8 form of a text. -/
def byteLength (cs : List Char) : Nat := cs.foldr (fun c n => c.utf8Size + n) 0

/-- The number of bytes of white space at the start of a text. -/
def indentBytes (cs : List Char) : Nat := byteLength (cs.takeWhile isWhite)

/-- The text without its first `n` bytes; there is none when the cut falls inside a character or
beyond the end. -/
def dropBytes : Nat → List Char → Option (List Char)
  | 0, cs => some cs
  | _ + 1, [] => none
  | n + 1, c :: cs => if c.utf8Size ≤ n + 1 then dropBytes (n + 1 - c.utf8Size) cs else none

/-- The smallest indentation, in bytes, of the lines that are not blank. -/
def commonIndent (ls : List (List Char)) : Nat :=
  ((ls.filter fun line => !isBlank line).map indentBytes).min?.getD 0

/-- One line of a re-indented text: blank lines become empty, others lose `n` bytes at the start and
white space at the end. -/
def cutLine (n : Nat) (line : List Char) : Option (List Char) :=
  if isBlank line then some [] else (dropBytes n line).map trimEnd

/-- The lines of a text, without line breaks around them, freed of their common indentation. -/
def dedent (cs : List Char) : Option (List (List Char)) :=
  let ls := lines (trimBreaks cs)
  ls.mapM (cutLine (commonIndent ls))

end Statechart.Text
