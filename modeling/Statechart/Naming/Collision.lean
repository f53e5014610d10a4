import Statechart.Machine.Events
import Statechart.Naming.Names

/-!
# Name collisions

Different parts of a model may be given the same generated name. All uses of names are listed in a
fixed order, each with what the name stands for there, and the first name that stands for something
else than before is reported. A part may use its own name again.
-/

namespace Statechart.Naming

/-- The scopes in which names must differ. -/
inductive Category where
  | stateId | eventId | function | handler
deriving DecidableEq, Repr

/-- How a scope is called in messages. -/
def Category.label : Category → String
  | stateId => "state id"
  | eventId => "event id"
  | function => "function"
  | handler => "handler reference"

/-- A name and what it stands for. -/
@[ext]
structure Use where
  category : Category
  name : String
  owner : String
deriving DecidableEq, Repr

/-- One name that stands for two things. -/
structure Collision where
  category : Category
  name : String
  first : String
  second : String
deriving DecidableEq, Repr

/-- The wording of a collision. -/
def Collision.message (c : Collision) : String :=
  "Generated " ++ c.category.label ++ " name `" ++ c.name ++ "` is used by both `" ++ c.first ++
    "` and `" ++ c.second ++ "`"

/-- The first use that contradicts an earlier one; `seen` are the uses before. -/
def collisionAfter (seen : List Use) : List Use → Option Collision
  | [] => none
  | entry :: rest =>
    match seen.find? fun c => c.category == entry.category && c.name == entry.name with
    | some first =>
      if first.owner = entry.owner then collisionAfter seen rest
      else some ⟨entry.category, entry.name, first.owner, entry.owner⟩
    | none => collisionAfter (entry :: seen) rest

end Statechart.Naming

namespace Statechart.Machine

open Naming

/-- The uses of names for a state. -/
def stateUses (m : Machine) (v : Nat) : List Use :=
  let owner := m.describe v
  [⟨.stateId, m.stateMember v, owner⟩, ⟨.function, m.enterFn v, owner⟩,
    ⟨.function, m.exitFn v, owner⟩, ⟨.handler, m.exitVariant v, owner⟩] ++
  ((m.eventsOf v).flatMap fun event =>
    let owner := owner ++ " (" ++ event ++ ")"
    [⟨.function, m.eventFn v event, owner⟩, ⟨.handler, m.eventVariant v event, owner⟩]) ++
  (m.pseudoChildren v).map fun p => ⟨.function, m.pseudoFn p, m.describe p⟩

/-- All uses of names in the generated code, in a fixed order. -/
def uses (m : Machine) : List Use :=
  (fixedFns.map fun name => ⟨.function, name, "built-in `" ++ name ++ "`"⟩) ++
  (m.events.map fun event => ⟨.eventId, eventMember event, "event `" ++ event ++ "`"⟩) ++
  m.states.flatMap m.stateUses

/-- The first name that stands for two things. -/
def collision (m : Machine) : Option Collision := collisionAfter [] m.uses

end Statechart.Machine
