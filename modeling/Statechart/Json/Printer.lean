import Statechart.Json.Value

/-!
# Writing a document

Values are written over several lines, two spaces for each level, with one item or member on a line;
an empty container stays on its line. Strings escape quotes, backslashes and control characters
only.
-/

namespace Statechart.Json

/-- The characters that stand for `c` in a string. -/
def escapeChar (c : Char) : List Char :=
  if c == '"' then ['\\', '"']
  else if c == '\\' then ['\\', '\\']
  else if c.toNat == 8 then ['\\', 'b']
  else if c.toNat == 9 then ['\\', 't']
  else if c.toNat == 10 then ['\\', 'n']
  else if c.toNat == 12 then ['\\', 'f']
  else if c.toNat == 13 then ['\\', 'r']
  else if c.toNat < 0x20 then
    ['\\', 'u', '0', '0', Nat.digitChar (c.toNat / 16), Nat.digitChar (c.toNat % 16)]
  else [c]

/-- A string in quotes. One without text is written as half of a surrogate pair,
which spells none. -/
def writeString : Option String → List Char
  | some s => '"' :: (s.toList.flatMap escapeChar ++ ['"'])
  | none => "\"\\ud800\"".toList

/-- A line break and the indentation of a level. -/
def lineBreak (level : Nat) : List Char := '\n' :: List.replicate (2 * level) ' '

namespace Value

mutual

/-- The text of a value that starts on a line of the given level. -/
def write (level : Nat) : Value → List Char
  | null => "null".toList
  | bool b => if b then "true".toList else "false".toList
  | number literal => literal
  | string text => writeString text
  | array [] => ['[', ']']
  | array (item :: rest) =>
    '[' :: (lineBreak (level + 1) ++ item.write (level + 1) ++ writeItems (level + 1) rest ++
      lineBreak level ++ [']'])
  | object [] => ['{', '}']
  | object ((name, value) :: rest) =>
    '{' :: (lineBreak (level + 1) ++ writeString name ++ [':', ' '] ++ value.write (level + 1) ++
      writeMembers (level + 1) rest ++ lineBreak level ++ ['}'])

/-- The items of an array but the first, each after a comma. -/
def writeItems (level : Nat) : List Value → List Char
  | [] => []
  | item :: rest => ',' :: (lineBreak level ++ item.write level ++ writeItems level rest)

/-- The members of an object but the first, each after a comma. -/
def writeMembers (level : Nat) : List (Option String × Value) → List Char
  | [] => []
  | (name, value) :: rest =>
    ',' :: (lineBreak level ++ writeString name ++ [':', ' '] ++ value.write level ++
      writeMembers level rest)

end

/-- The text of a document. -/
def print (value : Value) : String := String.ofList (value.write 0)

end Value

end Statechart.Json
