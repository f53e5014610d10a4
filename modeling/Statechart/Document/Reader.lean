import Statechart.Document.Model
import Statechart.Document.Record
import Statechart.Json.Reader

/-!
# Reading model documents

Containers of a document nest at most 127 deep. Inside vertices every part is held to that, and to
proper strings and numbers, even the parts that are passed over. Outside of vertices the values of
unknown members may be anything.
-/

namespace Statechart

open Json (Value)

/-- How deep the containers of a document may nest. -/
def maxNesting : Nat := 127

/-- Read a behavior. -/
def BehaviorDoc.ofValue (value : Value) : Option BehaviorDoc := do
  match ← value.record ["triggers", "guard", "action", "target"] with
  | [triggers, guard, action, target] =>
    pure {
      triggers := ← Value.orElse? [] (Value.list? Value.text?) triggers
      guard := ← Value.orElse? none (Value.nullable? Value.text?) guard
      action := ← Value.orElse? none (Value.nullable? Value.text?) action
      target := ← Value.orElse? none (Value.nullable? Value.text?) target }
  | _ => none

namespace VertexDoc

/-- The kinds of vertices, without what they hold. -/
inductive Tag where
  | state | initial | point (kind : PointKind) | final
deriving DecidableEq, Repr

/-- The names of the kinds, in their order. -/
def tags : List (String × Tag) :=
  [("state", .state), ("initial_state", .initial), ("choice_point", .point .choice),
   ("entry_point", .point .entry), ("exit_point", .point .exit), ("final_state", .final)]

/-- The kind that a value names. Inside another vertex a position in the order of
kinds serves too. -/
def tag? (nested : Bool) : Value → Option Tag
  | .string (some name) => tags.lookup name
  | .number literal =>
    if nested then (Json.index? literal).bind fun i => (tags[i]?).map (·.2) else none
  | _ => none

/-- The kind of a vertex and its other fields; the kind is a member named so or the first item. -/
def split : Value → Option (Value × Value)
  | .object members =>
    match members.partition fun member => member.1 == some "kind" with
    | ([kind], rest) => some (kind.2, .object rest)
    | _ => none
  | .array (kind :: rest) => some (kind, .array rest)
  | _ => none

/-- The behaviors of a vertex, none if the field is missing. -/
def behaviors? (field : Option Value) : Option (List BehaviorDoc) :=
  Value.orElse? [] (Value.list? BehaviorDoc.ofValue) field

/-- Read a vertex whose containers nest at most so deep. -/
def ofValue (nested : Bool) : Nat → Value → Option VertexDoc
  | 0, _ => none
  | levels + 1, value => do
    let (kind, fields) ← split value
    match ← tag? nested kind with
    | .state =>
      match ← fields.record ["name", "behaviors", "vertices"] with
      | [some name, behaviors, vertices] =>
        pure (.state (← name.text?) (← behaviors? behaviors)
          (← Value.orElse? [] (Value.list? (ofValue true levels)) vertices))
      | _ => none
    | .initial =>
      match ← fields.record ["behaviors"] with
      | [behaviors] => pure (.initial (← behaviors? behaviors))
      | _ => none
    | .point kind =>
      match ← fields.record ["label", "behaviors"] with
      | [some label, behaviors] => pure (.point kind (← label.text?) (← behaviors? behaviors))
      | _ => none
    | .final => do
      let _ ← fields.record []
      pure .final

/-- Read a vertex at the top of a document, where two containers are around it. -/
def ofTopValue (value : Value) : Option VertexDoc :=
  if value.isSound (maxNesting - 2) then ofValue false maxNesting value else none

end VertexDoc

namespace ModelDoc

/-- Read a model. -/
def ofValue (value : Value) : Option ModelDoc := do
  match ← value.record ["name", "description", "behaviors", "vertices"] with
  | [some name, description, behaviors, vertices] =>
    pure {
      name := ← name.text?
      description := ← Value.orElse? none (Value.nullable? Value.text?) description
      behaviors := ← VertexDoc.behaviors? behaviors
      vertices := ← Value.orElse? [] (Value.list? VertexDoc.ofTopValue) vertices }
  | _ => none

/-- Read the text of a model document. -/
def parse (text : String) : Option ModelDoc := (Json.parse text).bind ofValue

end ModelDoc

end Statechart
