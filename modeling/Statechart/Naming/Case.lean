import Statechart.Text.White
import Statechart.Text.LetterCase

/-!
# Identifier spelling

Free text becomes an identifier in two steps: characters that no identifier holds are replaced by
underscores, and the words of the result are joined either by underscores in lower case or by
capital first letters. A run of capitals is one word, up to the capital that starts the next one.
-/

namespace Statechart.Naming

/-- Whether the character may stand in a generated identifier. -/
def isPlainChar (c : Char) : Bool := c.isAlphanum || c == '_'

/-- Replace what no identifier holds by underscores, and keep a digit off the first place. -/
def sanitizeChars (cs : List Char) : List Char :=
  let out := (Text.trimChars cs).map fun c => if isPlainChar c then c else '_'
  match out with
  | c :: _ => if c.isDigit then '_' :: out else out
  | [] => out

/-- Whether a word starts at the capital `c`, seen between its neighbours. -/
def startsWord (previous : Option Char) (c : Char) (next : Option Char) : Bool :=
  Text.isUpper c && previous.any fun p =>
    Text.isLower p || p.isDigit || (Text.isUpper p && next.any Text.isLower)

/-- The text in lower case with an underscore before each word but the first. -/
def splitWords (previous : Option Char) : List Char → List Char
  | [] => []
  | c :: rest =>
    (if startsWord previous c rest.head? then ['_'] else []) ++
      Text.lowerChar c ++ splitWords (some c) rest

/-- Shorten every run of underscores to one. -/
def collapse : List Char → List Char
  | [] => []
  | c :: rest => if c == '_' && rest.head? == some '_' then collapse rest else c :: collapse rest

/-- Words in lower case joined by underscores, with a letter in front of a first digit. -/
def snakeChars (cs : List Char) : List Char :=
  let words := Text.trimBy (· == '_') (collapse (splitWords none cs))
  match words with
  | c :: _ => if c.isDigit then 'n' :: words else words
  | [] => words

/-- Drop underscores and capitalise what follows them; `fresh` tells that a word is about to
start. -/
def joinCapitals (fresh : Bool) : List Char → List Char
  | [] => []
  | c :: rest =>
    if c == '_' then joinCapitals true rest
    else (if fresh then c.toUpper else c) :: joinCapitals false rest

/-- Words joined by capital first letters. -/
def pascalChars (cs : List Char) : List Char :=
  match joinCapitals true cs with
  | [] => "Unnamed".toList
  | out => out

/-- `sanitizeChars` on strings. -/
def sanitize (s : String) : String := String.ofList (sanitizeChars s.toList)

/-- `snakeChars` on strings. -/
def snakeCase (s : String) : String := String.ofList (snakeChars s.toList)

/-- `pascalChars` on strings. -/
def pascalCase (s : String) : String := String.ofList (pascalChars s.toList)

/-- The identifier in lower case for a free text, such as a state's name, an event or a label. -/
def identifier (s : String) : String := snakeCase (sanitize s)

end Statechart.Naming
