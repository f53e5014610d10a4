import Statechart.Text.White
import Statechart.Text.NameChars

/-!
# Extents of code

How far one item of a guard or an action reaches from the start of a text. An extent is a number of
characters; there is none when no such item starts there. Comments, literals and bracketed groups
are found this way, so that commas, brackets and names inside them are not taken for structure. An
item that is never closed is no item: its first character then counts as an ordinary one.
-/

namespace Statechart.Snippet

/-- The number of characters up to the end of the line. -/
def lineLength (cs : List Char) : Nat := (cs.takeWhile fun c => c != '\n' && c != '\r').length

/-- A comment up to the end of its line. -/
def lineComment : List Char → Option Nat
  | '/' :: '/' :: rest => some (2 + lineLength rest)
  | _ => none

/-- What remains of a block comment, its closing mark included. Block comments nest. -/
def blockTail : List Char → Option Nat
  | [] => none
  | '*' :: '/' :: _ => some 2
  | '/' :: '*' :: rest =>
    match blockTail rest with
    | some n => (blockTail (rest.drop n)).map (2 + n + ·)
    | none => (blockTail ('*' :: rest)).map (1 + ·)
  | _ :: rest => (blockTail rest).map (1 + ·)
termination_by cs => cs.length
decreasing_by all_goals (simp only [List.length_drop, List.length_cons]; omega)

/-- A block comment. -/
def blockComment : List Char → Option Nat
  | '/' :: '*' :: rest => (blockTail rest).map (2 + ·)
  | _ => none

/-- What remains of a raw string that is closed by a quote and `hashes` hash signs. -/
def rawTail (hashes : Nat) : List Char → Option Nat
  | [] => none
  | c :: rest =>
    if c == '"' && (List.replicate hashes '#').isPrefixOf rest then some (1 + hashes)
    else (rawTail hashes rest).map (1 + ·)

/-- A raw string from its letter `r` on. -/
def rawFromR : List Char → Option Nat
  | 'r' :: rest =>
    let hashes := (rest.takeWhile (· == '#')).length
    match rest.drop hashes with
    | '"' :: body => (rawTail hashes body).map (2 + hashes + ·)
    | _ => none
  | _ => none

/-- A raw string, of text or of bytes. -/
def rawString : List Char → Option Nat
  | 'b' :: rest => (rawFromR rest).map (1 + ·)
  | cs => rawFromR cs

/-- What remains of a string after its opening quote; a backslash takes the next
character with it. -/
def stringTail : List Char → Option Nat
  | [] => none
  | '"' :: _ => some 1
  | '\\' :: _ :: rest => (stringTail rest).map (2 + ·)
  | _ :: rest => (stringTail rest).map (1 + ·)

/-- A string from its opening quote on. -/
def stringFromQuote : List Char → Option Nat
  | '"' :: rest => (stringTail rest).map (1 + ·)
  | _ => none

/-- A string, of text or of bytes. -/
def stringLiteral : List Char → Option Nat
  | 'b' :: rest => (stringFromQuote rest).map (1 + ·)
  | cs => stringFromQuote cs

/-- A character literal from its opening quote on: one character, or a backslash and everything up
to the closing quote. -/
def charFromQuote : List Char → Option Nat
  | '\'' :: '\\' :: _ :: rest =>
    let n := (rest.takeWhile (· != '\'')).length
    if (rest.drop n).isEmpty then none else some (3 + n + 1)
  | '\'' :: c :: '\'' :: _ => if c == '\'' || c == '\\' then none else some 3
  | _ => none

/-- A character literal, of text or of a byte. -/
def charLiteral : List Char → Option Nat
  | 'b' :: rest => (charFromQuote rest).map (1 + ·)
  | cs => charFromQuote cs

/-- A comment or a literal, inside which nothing has a meaning. -/
def sealedItem (cs : List Char) : Option Nat :=
  lineComment cs <|> blockComment cs <|> rawString cs <|> stringLiteral cs <|> charLiteral cs

/-- An identifier. -/
def identLength : List Char → Option Nat
  | c :: rest =>
    if Text.isNameStart c then some (1 + (rest.takeWhile Text.isNameContinue).length) else none
  | [] => none

/-- A quote and the identifier behind it. -/
def lifetime : List Char → Option Nat
  | '\'' :: rest => (identLength rest).map (1 + ·)
  | _ => none

/-- A digit and the letters, digits and underscores behind it. -/
def number : List Char → Option Nat
  | c :: rest =>
    if c.isDigit then some (1 + (rest.takeWhile fun d => d.isAlphanum || d == '_').length) else none
  | [] => none

/-- Two dots, perhaps with an equals sign. -/
def range : List Char → Option Nat
  | '.' :: '.' :: '=' :: _ => some 3
  | '.' :: '.' :: _ => some 2
  | _ => none

/-- White space and the identifier behind it. -/
def spacedIdent (cs : List Char) : Option Nat :=
  let blanks := (cs.takeWhile Text.isWhite).length
  (identLength (cs.drop blanks)).map (blanks + ·)

/-- An access to a member of something: a path separator or a dot, and the member's name. -/
def member : List Char → Option Nat
  | ':' :: ':' :: rest => (spacedIdent rest).map (2 + ·)
  | '.' :: rest => (spacedIdent rest).map (1 + ·)
  | _ => none

/-- The bracket that closes what `c` opens. -/
def closerOf (c : Char) : Option Char :=
  if c == '(' then some ')' else if c == '[' then some ']' else if c == '{' then some '}' else none

/-- Whether the character is a closing bracket. -/
def isCloser (c : Char) : Bool := c == ')' || c == ']' || c == '}'

/-- What remains of a bracketed group, its closing bracket included. A bracket inside it that opens
no group of its own is an ordinary character. -/
def groupTail (closer : Char) : List Char → Option Nat
  | [] => none
  | c :: rest =>
    match sealedItem (c :: rest) with
    | some n => (groupTail closer (rest.drop (n - 1))).map (n + ·)
    | none =>
      match closerOf c with
      | some inner =>
        match groupTail inner rest with
        | some n => (groupTail closer (rest.drop n)).map (1 + n + ·)
        | none => (groupTail closer rest).map (1 + ·)
      | none =>
        if isCloser c then if c == closer then some 1 else none
        else (groupTail closer rest).map (1 + ·)
termination_by cs => cs.length
decreasing_by all_goals (simp only [List.length_drop, List.length_cons]; omega)

/-- One argument of a call: everything up to a comma or a closing parenthesis of the call itself. -/
def argLength : List Char → Nat
  | [] => 0
  | c :: rest =>
    match sealedItem (c :: rest) with
    | some n => n + argLength (rest.drop (n - 1))
    | none =>
      match (closerOf c).bind fun closer => groupTail closer rest with
      | some n => 1 + n + argLength (rest.drop n)
      | none => if c == ',' || c == ')' then 0 else 1 + argLength rest
termination_by cs => cs.length
decreasing_by all_goals (simp only [List.length_drop, List.length_cons]; omega)

end Statechart.Snippet
