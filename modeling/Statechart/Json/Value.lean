/-!
# Documents of nested values

The values that a document in JSON denotes. Members of an object keep their order and may repeat. A
string literal that spells no text, because it holds half of a surrogate pair, is kept as a string
without text, and a number keeps its spelling: whether such a value is acceptable depends on where
it stands.
-/

namespace Statechart.Json

/-- A value of a document. -/
inductive Value where
  | null
  | bool (b : Bool)
  | number (literal : List Char)
  | string (text : Option String)
  | array (items : List Value)
  | object (members : List (Option String × Value))
deriving Repr

namespace Value

mutual

/-- The number of nested arrays and objects, the value itself counted. -/
def depth : Value → Nat
  | array items => depthOfItems items + 1
  | object members => depthOfMembers members + 1
  | _ => 0

/-- The largest depth among the items of an array. -/
def depthOfItems : List Value → Nat
  | [] => 0
  | item :: rest => max item.depth (depthOfItems rest)

/-- The largest depth among the members of an object. -/
def depthOfMembers : List (Option String × Value) → Nat
  | [] => 0
  | (_, value) :: rest => max value.depth (depthOfMembers rest)

end

mutual

/-- Whether all strings and numbers of a value, at any depth, satisfy the predicates. -/
def all (string : Option String → Bool) (number : List Char → Bool) : Value → Bool
  | .string text => string text
  | .number literal => number literal
  | .array items => allItems string number items
  | .object members => allMembers string number members
  | _ => true

/-- `all` for the items of an array. -/
def allItems (string : Option String → Bool) (number : List Char → Bool) : List Value → Bool
  | [] => true
  | item :: rest => item.all string number && allItems string number rest

/-- `all` for the members of an object, whose names are strings too. -/
def allMembers (string : Option String → Bool) (number : List Char → Bool) :
    List (Option String × Value) → Bool
  | [] => true
  | (name, value) :: rest => string name && value.all string number && allMembers string number rest

end

end Value

end Statechart.Json
