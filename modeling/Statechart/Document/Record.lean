import Statechart.Json.Value
import Statechart.Json.Number

/-!
# Records in documents

A record is written as an object, in which unknown members are passed over, or as an array of its
fields in their order, from which fields at the end may be missing. A field that is given twice, or
an array that is too long, makes the record unreadable.
-/

namespace Statechart.Json.Value

/-- The values of the named fields of a record, in the order of the names. -/
def record (names : List String) : Value → Option (List (Option Value))
  | array items =>
    if items.length ≤ names.length then
      some ((List.range names.length).map fun i => items[i]?)
    else none
  | object members =>
    if members.all fun member => member.1.isSome then
      names.mapM fun name =>
        match members.filter fun member => member.1 == some name with
        | [] => some none
        | [member] => some (some member.2)
        | _ => none
    else none
  | _ => none

/-- A text. -/
def text? : Value → Option String
  | string text => text
  | _ => none

/-- A list whose items are read one by one. -/
def list? {α : Type} (read : Value → Option α) : Value → Option (List α)
  | array items => items.mapM read
  | _ => none

/-- A value that may be null. -/
def nullable? {α : Type} (read : Value → Option α) : Value → Option (Option α)
  | null => some none
  | value => (read value).map some

/-- A field that may be missing. -/
def orElse? {α : Type} (fallback : α) (read : Value → Option α) : Option Value → Option α
  | some value => read value
  | none => some fallback

/-- Whether every part of the value is acceptable: strings spell texts, numbers are in range, and
containers nest at most so deep. -/
def isSound (maxDepth : Nat) (value : Value) : Bool :=
  value.depth ≤ maxDepth && value.all Option.isSome inDoubleRange

end Statechart.Json.Value
