import Statechart.Json.Token

/-!
# Reading a document

A reader takes tokens one by one and keeps the containers that are still open, innermost first. It
stops at the first token that does not fit. A document is one value: nothing may stand behind it.
-/

namespace Statechart.Json

/-- A container that is not closed yet; what it holds is kept latest first. -/
inductive Open where
  | array (items : List Value)
  /-- An object and the name of the member whose value is being read. -/
  | object (members : List (Option String × Value)) (name : Option String)
deriving Repr

/-- What a reader waits for, inside the open containers. -/
inductive Reader where
  /-- A value. -/
  | value (within : List Open)
  /-- The first item of an array, or its end. -/
  | item (within : List Open)
  /-- The name of the next member of an object; the object may end here only if it is empty. -/
  | member (within : List Open) (members : List (Option String × Value))
  /-- The colon behind a member's name. -/
  | colon (within : List Open) (members : List (Option String × Value)) (name : Option String)
  /-- What follows a value. -/
  | done (within : List Open) (value : Value)
deriving Repr

namespace Reader

/-- Start reading a value. -/
def start (within : List Open) : Token → Option Reader
  | .atom v => some (.done within v)
  | .openArray => some (.item (.array [] :: within))
  | .openObject => some (.member within [])
  | _ => none

/-- Take one token. -/
def step : Reader → Token → Option Reader
  | value within, token => start within token
  | item (.array [] :: within), .closeArray => some (.done within (.array []))
  | item within, token => start within token
  | member within [], .closeObject => some (.done within (.object []))
  | member within members, .atom (.string name) => some (.colon within members name)
  | colon within members name, .colon => some (.value (.object members name :: within))
  | done (.array items :: within) v, .comma => some (.value (.array (v :: items) :: within))
  | done (.array items :: within) v, .closeArray =>
    some (.done within (.array (v :: items).reverse))
  | done (.object members name :: within) v, .comma => some (.member within ((name, v) :: members))
  | done (.object members name :: within) v, .closeObject =>
    some (.done within (.object ((name, v) :: members).reverse))
  | _, _ => none

end Reader

/-- The value that tokens spell. -/
def ofTokens (ts : List Token) : Option Value :=
  match ts.foldlM Reader.step (.value []) with
  | some (.done [] value) => some value
  | _ => none

/-- The value that a text spells. -/
def parse (text : String) : Option Value := (tokens text.toList).bind ofTokens

end Statechart.Json
