import Statechart.Document.Model
import Statechart.Json.Printer

/-!
# Writing model documents

Fields are written in their order. A missing text and an empty list leave no member behind, except
that pseudo-states always show their behaviors.
-/

namespace Statechart

open Json (Value)

/-- A member with a text. -/
def textMember (name text : String) : Option String × Value := (some name, .string (some text))

/-- A member with a text, if there is one. -/
def optionalMember (name : String) : Option String → List (Option String × Value)
  | some text => [textMember name text]
  | none => []

/-- A member with a list, if the list is not empty. -/
def listMember (name : String) (items : List Value) : List (Option String × Value) :=
  if items.isEmpty then [] else [(some name, .array items)]

/-- The value that a behavior is written as. -/
def BehaviorDoc.toValue (b : BehaviorDoc) : Value :=
  .object (listMember "triggers" (b.triggers.map fun t => .string (some t)) ++
    optionalMember "guard" b.guard ++ optionalMember "action" b.action ++
    optionalMember "target" b.target)

/-- The name of a labelled pseudo-state's kind. -/
def PointKind.tagName : PointKind → String
  | choice => "choice_point"
  | entry => "entry_point"
  | exit => "exit_point"

namespace VertexDoc

mutual

/-- The value that a vertex is written as. -/
def toValue : VertexDoc → Value
  | state name behaviors vertices =>
    .object ([textMember "kind" "state", textMember "name" name] ++
      listMember "behaviors" (behaviors.map BehaviorDoc.toValue) ++
      listMember "vertices" (toValues vertices))
  | initial behaviors =>
    .object [textMember "kind" "initial_state",
      (some "behaviors", .array (behaviors.map BehaviorDoc.toValue))]
  | point kind label behaviors =>
    .object [textMember "kind" kind.tagName, textMember "label" label,
      (some "behaviors", .array (behaviors.map BehaviorDoc.toValue))]
  | final => .object [textMember "kind" "final_state"]

/-- The values that vertices are written as. -/
def toValues : List VertexDoc → List Value
  | [] => []
  | vertex :: rest => vertex.toValue :: toValues rest

end

end VertexDoc

namespace ModelDoc

/-- The value that a model is written as. -/
def toValue (model : ModelDoc) : Value :=
  .object ([textMember "name" model.name] ++ optionalMember "description" model.description ++
    listMember "behaviors" (model.behaviors.map BehaviorDoc.toValue) ++
    listMember "vertices" (VertexDoc.toValues model.vertices))

/-- The text of a model document. -/
def print (model : ModelDoc) : String := model.toValue.print

end ModelDoc

end Statechart
