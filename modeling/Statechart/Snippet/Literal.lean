import Statechart.Text.NameChars

/-!
# Literals of Rust code

How far a literal reaches from the start of a text, by the rules of the language: what a string may
hold, which escapes it knows, and where a number ends. A literal takes an identifier right behind it
along as its suffix. As for any extent, there is none when the text does not start with a literal.
-/

namespace Statechart.Snippet.Literal

/-- The length of an identifier at the start of a text, zero if there is none. -/
def suffixLength : List Char → Nat
  | c :: rest => if Text.isNameStart c then 1 + (rest.takeWhile Text.isNameContinue).length else 0
  | [] => 0

/-- The extent of a literal together with its suffix. -/
def withSuffix (cs : List Char) (n : Nat) : Nat := n + suffixLength (cs.drop n)

/-- The kinds of strings: text, bytes, and text that ends with a null character. -/
inductive StringKind where
  | text | bytes | cstring
deriving DecidableEq, Repr

/-- Whether the character may stand in the string as it is. -/
def StringKind.admits (kind : StringKind) (c : Char) : Bool :=
  match kind with
  | text => true
  | bytes => c.toNat < 0x80
  | cstring => c.toNat != 0

/-- The value of a hexadecimal digit. -/
def hexValue (c : Char) : Option Nat :=
  if '0' ≤ c && c ≤ '9' then some (c.toNat - '0'.toNat)
  else if 'a' ≤ c && c ≤ 'f' then some (10 + (c.toNat - 'a'.toNat))
  else if 'A' ≤ c && c ≤ 'F' then some (10 + (c.toNat - 'A'.toNat))
  else none

/-- Whether two hexadecimal digits may follow `\x` in such a string. -/
def StringKind.admitsHex (kind : StringKind) (high low : Char) : Bool :=
  match hexValue high, hexValue low with
  | some h, some l =>
    match kind with
    | text => h < 8
    | bytes => true
    | cstring => h + l != 0
  | _, _ => false

/-- The value and the extent of the digits of a code point escape, with its closing brace. -/
def codePointDigits (value digits : Nat) : List Char → Option (Nat × Nat)
  | [] => none
  | c :: rest =>
    match hexValue c with
    | some d =>
      if digits == 6 then none
      else (codePointDigits (value * 16 + d) (digits + 1) rest).map fun (v, n) => (v, n + 1)
    | none =>
      if c == '_' && digits != 0 then
        (codePointDigits value digits rest).map fun (v, n) => (v, n + 1)
      else if c == '}' && digits != 0 then some (value, 1)
      else none

/-- The extent of a code point escape behind its letter `u`. -/
def codePointEscape (kind : StringKind) : List Char → Option Nat
  | '{' :: rest =>
    match codePointDigits 0 0 rest with
    | some (value, n) =>
      if decide (Nat.isValidChar value) && (kind != .cstring || value != 0) then some (1 + n)
        else none
    | none => none
  | _ => none

/-- The extent of the blanks and line breaks that a backslash at the end of a line skips. -/
def continuation : List Char → Option Nat
  | [] => none
  | '\r' :: '\n' :: rest => (continuation rest).map (2 + ·)
  | c :: rest =>
    if c == '\r' then none
    else if c == ' ' || c == '\t' || c == '\n' then (continuation rest).map (1 + ·)
    else some 0

/-- The extent of the escapes that strings and characters share, behind the backslash. -/
def charEscape (kind : StringKind) : List Char → Option Nat
  | 'x' :: high :: low :: _ => if kind.admitsHex high low then some 3 else none
  | 'u' :: rest => if kind == .bytes then none else (codePointEscape kind rest).map (1 + ·)
  | c :: _ =>
    if c == 'n' || c == 'r' || c == 't' || c == '\\' || c == '\'' || c == '"' then some 1
    else if c == '0' && kind != .cstring then some 1
    else none
  | [] => none

/-- The extent of an escape in a string, behind the backslash. -/
def stringEscape (kind : StringKind) : List Char → Option Nat
  | [] => none
  | c :: rest =>
    if c == '\n' || c == '\r' then continuation (c :: rest) else charEscape kind (c :: rest)

/-- What remains of a string after its opening quote. -/
def cookedTail (kind : StringKind) : List Char → Option Nat
  | [] => none
  | '\r' :: '\n' :: rest => (cookedTail kind rest).map (2 + ·)
  | c :: rest =>
    if c == '"' then some 1
    else if c == '\r' then none
    else if c == '\\' then
      match stringEscape kind rest with
      | some n => (cookedTail kind (rest.drop n)).map (1 + n + ·)
      | none => none
    else if kind.admits c then (cookedTail kind rest).map (1 + ·)
    else none
termination_by cs => cs.length
decreasing_by all_goals (simp only [List.length_drop, List.length_cons]; omega)

/-- What remains of a raw string that is closed by a quote and `hashes` hash signs. -/
def rawTail (kind : StringKind) (hashes : Nat) : List Char → Option Nat
  | [] => none
  | '\r' :: '\n' :: rest => (rawTail kind hashes rest).map (2 + ·)
  | c :: rest =>
    if c == '"' && (List.replicate hashes '#').isPrefixOf rest then some (1 + hashes)
    else if c == '\r' then none
    else if kind.admits c then (rawTail kind hashes rest).map (1 + ·)
    else none

/-- The extent of a raw string behind its letter `r`; more than 255 hash signs are too many. -/
def rawBody (kind : StringKind) (cs : List Char) : Option Nat :=
  let hashes := (cs.takeWhile (· == '#')).length
  match cs.drop hashes with
  | '"' :: body => if hashes ≤ 255 then (rawTail kind hashes body).map (hashes + 1 + ·) else none
  | _ => none

/-- The extent of a string of any kind. -/
def string : List Char → Option Nat
  | '"' :: rest => (cookedTail .text rest).map (1 + ·)
  | 'r' :: rest => (rawBody .text rest).map (1 + ·)
  | 'b' :: '"' :: rest => (cookedTail .bytes rest).map (2 + ·)
  | 'b' :: 'r' :: rest => (rawBody .bytes rest).map (2 + ·)
  | 'c' :: '"' :: rest => (cookedTail .cstring rest).map (2 + ·)
  | 'c' :: 'r' :: rest => (rawBody .cstring rest).map (2 + ·)
  | _ => none

/-- The extent of a character with its closing quote, behind the opening quote. -/
def quotedChar (kind : StringKind) : List Char → Option Nat
  | [] => none
  | c :: rest =>
    let inner := if c == '\\' then (charEscape kind rest).map (1 + ·)
      else if kind.admits c then some 1 else none
    inner.bind fun n => if ((c :: rest).drop n).head? == some '\'' then some (n + 1) else none

/-- The extent of a character or of a byte. -/
def char : List Char → Option Nat
  | '\'' :: rest => (quotedChar .text rest).map (1 + ·)
  | 'b' :: '\'' :: rest => (quotedChar .bytes rest).map (2 + ·)
  | _ => none

/-- The extent of the digits of a floating point number before its exponent, whether there is a
point among them and whether an exponent mark ends them. -/
def mantissa (point : Bool) : List Char → Option (Nat × Bool × Bool)
  | [] => some (0, point, false)
  | c :: rest =>
    if c.isDigit || c == '_' then (mantissa point rest).map fun (n, r) => (1 + n, r)
    else if c == '.' && !point then
      if rest.head?.any fun d => d == '.' || Text.isNameStart d then none
      else (mantissa true rest).map fun (n, r) => (1 + n, r)
    else if c == 'e' || c == 'E' then some (1, point, true)
    else some (0, point, false)

/-- The extent of an exponent behind its mark: one sign at most, and at least one digit. -/
def exponent (signed valued : Bool) : List Char → Option Nat
  | [] => if valued then some 0 else none
  | c :: rest =>
    if c == '+' || c == '-' then
      if valued then some 0 else if signed then none else (exponent true valued rest).map (1 + ·)
    else if c.isDigit then (exponent signed true rest).map (1 + ·)
    else if c == '_' then (exponent signed valued rest).map (1 + ·)
    else if valued then some 0 else none

/-- The extent of the digits of a floating point number. Without a proper exponent it ends before
the exponent mark, provided that it has a point. -/
def floatDigits : List Char → Option Nat
  | [] => none
  | c :: rest =>
    if c.isDigit then
      (mantissa false rest).bind fun (n, point, marked) =>
        if marked then
          match exponent false false (rest.drop n) with
          | some k => some (1 + n + k)
          | none => if point then some n else none
        else if point then some (1 + n) else none
    else none

/-- The extent of the digits of an integer in a base, and whether there are any; a decimal digit too
large for the base spoils the number, a letter ends it. -/
def digitRun (base : Nat) (empty : Bool) : List Char → Option (Nat × Bool)
  | [] => some (0, empty)
  | c :: rest =>
    match hexValue c with
    | some d =>
      if d < base then (digitRun base false rest).map fun (n, e) => (1 + n, e)
      else if c.isDigit then none
      else some (0, empty)
    | none =>
      if c == '_' then
        if empty && base == 10 then none else (digitRun base empty rest).map fun (n, e) =>
          (1 + n, e)
      else some (0, empty)

/-- The extent of at least one digit in a base. -/
def digitsIn (base : Nat) (cs : List Char) : Option Nat :=
  (digitRun base true cs).bind fun (n, empty) => if empty then none else some n

/-- The extent of the digits of an integer, with the mark of its base. -/
def intDigits : List Char → Option Nat
  | '0' :: 'x' :: rest => (digitsIn 16 rest).map (2 + ·)
  | '0' :: 'o' :: rest => (digitsIn 8 rest).map (2 + ·)
  | '0' :: 'b' :: rest => (digitsIn 2 rest).map (2 + ·)
  | cs => digitsIn 10 cs

/-- The extent of a number with its suffix, unless it runs on into another identifier. -/
def closeNumber (cs : List Char) (n : Nat) : Option Nat :=
  let n := withSuffix cs n
  if (cs.drop n).head?.any Text.isNameContinue then none else some n

/-- The extent of a literal. -/
def length (cs : List Char) : Option Nat :=
  (string cs).map (withSuffix cs) <|> (char cs).map (withSuffix cs) <|>
    (floatDigits cs).bind (closeNumber cs) <|> (intDigits cs).bind (closeNumber cs)

end Statechart.Snippet.Literal
