import Statechart.Snippet.Token
import Statechart.Text.Alphanumeric

/-!
# References to identifiers

Whether code uses an identifier. Comments and literals do not count, as long as the code has a
lexical structure at all; otherwise its words are searched.
-/

namespace Statechart.Snippet

/-- The words of a text: what stands between characters that belong to no word. The characters
already read of the first word are given latest first. -/
def wordsAfter (word : List Char) : List Char → List (List Char)
  | [] => [word.reverse]
  | c :: rest =>
    if Text.isWordChar c then wordsAfter (c :: word) rest else word.reverse :: wordsAfter [] rest

/-- The words of a text. -/
def words (cs : List Char) : List (List Char) := wordsAfter [] cs

/-- Whether the identifier is among the tokens of the code or, if it has none, among its words. -/
def references (code ident : String) : Bool :=
  match Token.lex code.toList with
  | some tokens => tokens.any (Token.isIdent ident.toList)
  | none => (words code.toList).contains ident.toList

/-- The flag that an action sets to decide whether its event goes on to outer states. -/
def consumeFlag : String := "consume_event"

end Statechart.Snippet
