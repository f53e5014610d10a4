import Statechart.Json.Value
import Statechart.Json.Number

/-!
# Tokens of a document

The text of a document in JSON is cut into brackets, commas, colons and values without parts. White
space between them is dropped. Strings may not hold control characters; an escape with four
hexadecimal digits gives a UTF-16 unit, and two such units can form one character.
-/

namespace Statechart.Json

/-- A token of a document. -/
inductive Token where
  | openArray | closeArray | openObject | closeObject | comma | colon
  | atom (value : Value)
deriving Repr

/-- Whether the character separates tokens. -/
def isGap (c : Char) : Bool := c == ' ' || c == '\n' || c == '\t' || c == '\r'

/-- The value of a hexadecimal digit. -/
def hexDigit (c : Char) : Option Nat :=
  if '0' ≤ c && c ≤ '9' then some (c.toNat - '0'.toNat)
  else if 'a' ≤ c && c ≤ 'f' then some (10 + (c.toNat - 'a'.toNat))
  else if 'A' ≤ c && c ≤ 'F' then some (10 + (c.toNat - 'A'.toNat))
  else none

/-- The UTF-16 unit that four hexadecimal digits spell. -/
def hexUnit (a b c d : Char) : Option Nat := do
  pure (4096 * (← hexDigit a) + 256 * (← hexDigit b) + 16 * (← hexDigit c) + (← hexDigit d))

/-- The character that a backslash and a letter stand for. -/
def shortEscape (c : Char) : Option Nat :=
  if c == '"' || c == '\\' || c == '/' then some c.toNat
  else if c == 'b' then some 8
  else if c == 'f' then some 12
  else if c == 'n' then some 10
  else if c == 'r' then some 13
  else if c == 't' then some 9
  else none

/-- The code points and units of a string after its opening quote, and the extent of the string with
its closing quote. -/
def stringUnits : List Char → Option (List Nat × Nat)
  | [] => none
  | '\\' :: 'u' :: a :: b :: c :: d :: rest => do
    let unit ← hexUnit a b c d
    let (units, n) ← stringUnits rest
    pure (unit :: units, 6 + n)
  | '\\' :: c :: rest => do
    let unit ← shortEscape c
    let (units, n) ← stringUnits rest
    pure (unit :: units, 2 + n)
  | c :: rest =>
    if c == '"' then some ([], 1)
    else if c.toNat < 0x20 || c == '\\' then none
    else do
      let (units, n) ← stringUnits rest
      pure (c.toNat :: units, 1 + n)

/-- Whether the unit is the first half of a surrogate pair. -/
def isHighSurrogate (u : Nat) : Bool := 0xD800 ≤ u && u ≤ 0xDBFF

/-- Whether the unit is the second half of a surrogate pair. -/
def isLowSurrogate (u : Nat) : Bool := 0xDC00 ≤ u && u ≤ 0xDFFF

/-- The characters that units spell; there are none when a surrogate stands alone. -/
def unitChars : List Nat → Option (List Char)
  | [] => some []
  | u :: rest =>
    if isHighSurrogate u then
      match rest with
      | v :: rest =>
        if isLowSurrogate v then
          (unitChars rest).map (Char.ofNat (0x10000 + (u - 0xD800) * 0x400 + (v - 0xDC00)) :: ·)
        else none
      | [] => none
    else if isLowSurrogate u then none
    else (unitChars rest).map (Char.ofNat u :: ·)

/-- A string token and its extent, behind its opening quote. -/
def stringToken (cs : List Char) : Option (Token × Nat) :=
  (stringUnits cs).map fun (units, n) => (.atom (.string ((unitChars units).map String.ofList)), n)

/-- The tokens that are spelled in one way only. -/
def fixedTokens : List (List Char × Token) :=
  [(['['], .openArray), ([']'], .closeArray), (['{'], .openObject), (['}'], .closeObject),
   ([','], .comma), ([':'], .colon), ("null".toList, .atom .null),
   ("true".toList, .atom (.bool true)), ("false".toList, .atom (.bool false))]

/-- The token at the start of a text, and its extent. -/
def firstToken (cs : List Char) : Option (Token × Nat) :=
  match fixedTokens.find? fun entry => entry.1.isPrefixOf cs with
  | some (spelling, token) => some (token, spelling.length)
  | none =>
    match cs with
    | '"' :: rest => (stringToken rest).map fun (token, n) => (token, 1 + n)
    | _ => (numberLength cs).map fun n => (.atom (.number (cs.take n)), n)

/-- The tokens of a text. -/
def tokens : List Char → Option (List Token)
  | [] => some []
  | c :: rest =>
    if isGap c then tokens rest
    else
      match firstToken (c :: rest) with
      | some (token, n) => (tokens (rest.drop (n - 1))).map (token :: ·)
      | none => none
termination_by cs => cs.length
decreasing_by all_goals (simp only [List.length_drop, List.length_cons]; omega)

end Statechart.Json
