/-!
# Number literals

A number of a document is kept as it is spelled. Two questions are asked about the spelling: whether
the number is within the range of double precision, and which natural number it spells, if it is
spelled with digits only.
-/

namespace Statechart.Json

/-- The extent of an optional sign and at least one digit, the exponent of a number behind its
mark. -/
def exponentLength : List Char → Option Nat
  | [] => none
  | c :: rest =>
    let signed := c == '+' || c == '-'
    let digits := ((if signed then rest else c :: rest).takeWhile Char.isDigit).length
    if digits == 0 then none else some (digits + if signed then 1 else 0)

/-- The extent of the fraction of a number, zero if there is none; a point needs a digit behind
it. -/
def fractionLength : List Char → Option Nat
  | '.' :: rest =>
    let digits := (rest.takeWhile Char.isDigit).length
    if digits == 0 then none else some (1 + digits)
  | _ => some 0

/-- The extent of the exponent of a number with its mark, zero if there is none. -/
def scaleLength : List Char → Option Nat
  | c :: rest => if c == 'e' || c == 'E' then (exponentLength rest).map (1 + ·) else some 0
  | [] => some 0

/-- The extent of the digits before the point: a zero, or digits that do not start with one. -/
def wholeLength : List Char → Option Nat
  | c :: rest =>
    if c == '0' then some 1
    else if c.isDigit then some (1 + (rest.takeWhile Char.isDigit).length) else none
  | [] => none

/-- The extent of a number without a sign. -/
def magnitudeLength (cs : List Char) : Option Nat := do
  let whole ← wholeLength cs
  let fraction ← fractionLength (cs.drop whole)
  let scale ← scaleLength (cs.drop (whole + fraction))
  pure (whole + fraction + scale)

/-- The extent of a number. -/
def numberLength : List Char → Option Nat
  | '-' :: rest => (magnitudeLength rest).map (1 + ·)
  | cs => magnitudeLength cs

/-- The value of decimal digits. -/
def digitsValue (cs : List Char) : Nat := cs.foldl (fun n c => 10 * n + (c.toNat - '0'.toNat)) 0

/-- The power of ten that an exponent stands for. -/
def exponentValue : List Char → Int
  | '-' :: digits => -(digitsValue digits : Int)
  | '+' :: digits => digitsValue digits
  | digits => digitsValue digits

/-- The number `n` extended by decimal digits as long as 64 bits hold it, and the digits
that are left over. -/
def extend (n : Nat) : List Char → Nat × List Char
  | [] => (n, [])
  | c :: rest =>
    let next := 10 * n + (c.toNat - '0'.toNat)
    if next < Nat.pow 2 64 then extend next rest else (n, c :: rest)

/-- A significand of 64 bits and the power of ten that it is multiplied by. Whole digits
that do not fit into the significand count as powers of ten; digits of the fraction that do
not fit are dropped. -/
def scientific (literal : List Char) : Nat × Int :=
  let unsigned := if literal.head? == some '-' then literal.tail else literal
  let mantissa := unsigned.takeWhile fun c => c != 'e' && c != 'E'
  let exponent := (unsigned.drop mantissa.length).tail
  let whole := mantissa.takeWhile (· != '.')
  let fraction := (mantissa.drop whole.length).tail
  let (leading, excess) := extend 0 whole
  let (significand, dropped) := extend leading fraction
  (significand, exponentValue exponent + excess.length + dropped.length - fraction.length)

/-- The nearest number with at most 53 binary digits; of two that are equally near, the one whose
last digit is even. -/
def toDouble (n : Nat) : Nat :=
  let unit := Nat.pow 2 (n.log2 + 1 - 53)
  let below := n / unit
  let rest := 2 * (n % unit)
  unit * if unit < rest || rest == unit && below % 2 == 1 then below + 1 else below

/-- The least magnitude that double precision rounds to infinity. -/
def overflowBound : Nat := Nat.pow 2 1024 - Nat.pow 2 970

/-- The largest power of ten that is finite in double precision. -/
def maxScale : Int := 308

/-- Whether the number is finite in double precision when its significand and its power of ten are
rounded first and their product is rounded again. -/
def inDoubleRange (literal : List Char) : Bool :=
  let (significand, scale) := scientific literal
  significand == 0 || scale < 0 ||
    scale ≤ maxScale && toDouble significand * toDouble (Nat.pow 10 scale.toNat) < overflowBound

/-- The natural number that is spelled by digits alone, if it fits into 64 bits. -/
def index? (literal : List Char) : Option Nat :=
  if literal.all Char.isDigit && digitsValue literal < Nat.pow 2 64 then some (digitsValue literal)
    else none

end Statechart.Json
