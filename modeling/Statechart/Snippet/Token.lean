import Statechart.Text.White
import Statechart.Snippet.Literal

/-!
# Tokens of Rust code

The lexical structure of expanded code, as far as it matters for finding identifiers: comments and
white space separate tokens, doc comments count as attributes, brackets pair up. A text that breaks
these rules has no tokens.
-/

namespace Statechart.Snippet

/-- A token. -/
inductive Token where
  /-- An identifier; a raw one is written with `r#` in front. -/
  | ident (raw : Bool) (name : List Char)
  | literal (text : List Char)
  | punct (c : Char)
  | bracket (c : Char)
  /-- A doc comment, which stands for an attribute named `doc`. -/
  | doc (text : List Char)
deriving DecidableEq, Repr

namespace Token

/-- Whether the character separates tokens. -/
def isSeparator (c : Char) : Bool := Text.isWhite c || c.toNat == 0x200E || c.toNat == 0x200F

/-- The extent of a nesting block comment at the given depth, up to its end. -/
def nestedComment (depth : Nat) : List Char → Option Nat
  | '/' :: '*' :: rest => (nestedComment (depth + 1) rest).map (2 + ·)
  | '*' :: '/' :: rest => if depth ≤ 1 then some 2 else (nestedComment (depth - 1) rest).map (2 + ·)
  | _ :: rest => (nestedComment depth rest).map (1 + ·)
  | [] => none

/-- The extent of a line from its start up to its line feed. -/
def untilLineFeed (cs : List Char) : Nat := (cs.takeWhile (· != '\n')).length

/-- The extent of a comment that separates tokens. -/
def plainComment (cs : List Char) : Option Nat :=
  match cs with
  | '/' :: '/' :: '/' :: '/' :: _ => some (untilLineFeed cs)
  | '/' :: '/' :: '/' :: _ => none
  | '/' :: '/' :: '!' :: _ => none
  | '/' :: '/' :: _ => some (untilLineFeed cs)
  | '/' :: '*' :: '*' :: '/' :: _ => some 4
  | '/' :: '*' :: '*' :: '*' :: _ => nestedComment 0 cs
  | '/' :: '*' :: '*' :: _ => none
  | '/' :: '*' :: '!' :: _ => none
  | '/' :: '*' :: _ => nestedComment 0 cs
  | _ => none

/-- The extent of white space or of a comment. -/
def separator : List Char → Option Nat
  | [] => none
  | c :: rest => if isSeparator c then some 1 else plainComment (c :: rest)

/-- Whether every carriage return is followed by a line feed. -/
def breaksPaired : List Char → Bool
  | [] => true
  | '\r' :: '\n' :: rest => breaksPaired rest
  | c :: rest => c != '\r' && breaksPaired rest

/-- The text of a doc comment that runs to the end of its line, without a carriage return before the
line feed. -/
def docLine (cs : List Char) : List Char :=
  let line := cs.takeWhile (· != '\n')
  if line.length < cs.length && line.getLast? == some '\r' then line.dropLast else line

/-- The extent of a doc comment between marks, and the text that it holds. -/
def docBlock (cs : List Char) : Option (Nat × List Char) :=
  (nestedComment 0 cs).map fun n => (n, ((cs.take n).drop 3).dropLast.dropLast)

/-- The extent of a doc comment and the text that it holds. -/
def docSpan (cs : List Char) : Option (Nat × List Char) :=
  match cs with
  | '/' :: '/' :: '!' :: rest => some (untilLineFeed cs, docLine rest)
  | '/' :: '*' :: '!' :: _ => docBlock cs
  | '/' :: '/' :: '/' :: '/' :: _ => none
  | '/' :: '/' :: '/' :: rest => some (untilLineFeed cs, docLine rest)
  | '/' :: '*' :: '*' :: '*' :: _ => none
  | '/' :: '*' :: '*' :: _ => docBlock cs
  | _ => none

/-- A doc comment and its extent, provided its carriage returns belong to line breaks. -/
def docComment (cs : List Char) : Option (Nat × Token) :=
  (docSpan cs).bind fun (n, text) => if breaksPaired text then some (n, .doc text) else none

/-- The characters that are punctuation. -/
def punctuation : List Char := "~!@#$%^&*-=+|;:,<.>/?'".toList

/-- The words that have no raw form. -/
def neverRaw : List (List Char) := ["_", "super", "self", "Self", "crate"].map String.toList

/-- An identifier, raw or not, and its extent. -/
def anyIdent (cs : List Char) : Option (Nat × Token) :=
  match cs with
  | 'r' :: '#' :: rest =>
    let n := Literal.suffixLength rest
    if n == 0 || neverRaw.contains (rest.take n) then none
      else some (2 + n, .ident true (rest.take n))
  | _ =>
    let n := Literal.suffixLength cs
    if n == 0 then none else some (n, .ident false (cs.take n))

/-- How no identifier starts, because it would be a literal. -/
def literalStarts : List (List Char) :=
  ["r\"", "r#\"", "r##", "b\"", "b'", "br\"", "br#", "c\"", "cr\"", "cr#"].map String.toList

/-- An identifier that does not look like the start of a literal, and its extent. -/
def plainIdent (cs : List Char) : Option (Nat × Token) :=
  if literalStarts.any fun start => start.isPrefixOf cs then none else anyIdent cs

/-- Whether a quote in front of the text marks a lifetime: an identifier follows that is not itself
closed by a quote or, unless it is raw, by a hash sign. -/
def marksLifetime (cs : List Char) : Bool :=
  match anyIdent cs with
  | some (n, .ident raw _) =>
    let next := (cs.drop n).head?
    next != some '\'' && (raw || next != some '#')
  | _ => false

/-- A punctuation mark and its extent. The slash of a comment is none. -/
def punctMark : List Char → Option (Nat × Token)
  | [] => none
  | c :: rest =>
    if c == '/' && (rest.head? == some '/' || rest.head? == some '*') then none
    else if !punctuation.contains c then none
    else if c == '\'' && !marksLifetime rest then none
    else some (1, .punct c)

/-- The text that stands for an expansion that failed, a literal of its own. -/
def errorMark : List Char := "(/*ERROR*/)".toList

/-- The token at the start of a text that is neither blank nor a bracket, and its extent. -/
def leaf (cs : List Char) : Option (Nat × Token) :=
  (Literal.length cs).map (fun n => (n, .literal (cs.take n))) <|> punctMark cs <|>
    plainIdent cs <|>
    if errorMark.isPrefixOf cs then some (errorMark.length, .literal errorMark) else none

/-- The bracket that closes what `c` opens. -/
def closing (c : Char) : Option Char :=
  if c == '(' then some ')' else if c == '[' then some ']' else if c == '{' then some '}' else none

/-- The tokens of a text, given the brackets that are still to be closed, innermost first. -/
def lexAfter (pending : List Char) : List Char → Option (List Token)
  | [] => if pending.isEmpty then some [] else none
  | c :: rest =>
    match separator (c :: rest) with
    | some n => lexAfter pending (rest.drop (n - 1))
    | none =>
      match docComment (c :: rest) with
      | some (n, token) => (lexAfter pending (rest.drop (n - 1))).map (token :: ·)
      | none =>
        match closing c, errorMark.isPrefixOf (c :: rest) with
        | some closer, false => (lexAfter (closer :: pending) rest).map (.bracket c :: ·)
        | _, _ =>
          if c == ')' || c == ']' || c == '}' then
            if pending.head? == some c then (lexAfter pending.tail rest).map (.bracket c :: ·)
              else none
          else
            match leaf (c :: rest) with
            | some (n, token) => (lexAfter pending (rest.drop (n - 1))).map (token :: ·)
            | none => none
termination_by cs => cs.length
decreasing_by all_goals (simp only [List.length_drop, List.length_cons]; omega)

/-- The tokens of a text; a byte order mark at its start is dropped. -/
def lex (cs : List Char) : Option (List Token) :=
  lexAfter [] (if cs.head? == some (Char.ofNat 0xFEFF) then cs.tail else cs)

/-- Whether the token is the identifier as it is spelled. -/
def isIdent (spelling : List Char) : Token → Bool
  | ident raw name => if raw then 'r' :: '#' :: name == spelling else name == spelling
  | doc _ => "doc".toList == spelling
  | _ => false

end Token

end Snippet

end Statechart
