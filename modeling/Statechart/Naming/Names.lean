import Statechart.Machine.Description
import Statechart.Naming.Case
import Statechart.Naming.Fixed

/-!
# Generated names

The identifiers that the generated code declares for a machine: types and enumeration members with
capital first letters, functions in lower case.
-/

namespace Statechart.Machine

open Naming (identifier pascalCase snakeCase)

/-- The name that a state's functions start with. -/
def stateName (m : Machine) (v : Nat) : String :=
  match m.kind v with
  | .root _ => "root"
  | .state name => identifier name
  | .final =>
    (match _h : m.parent v with
      | some p => m.stateName p
      | none => "root") ++ "_final"
  | .initial | .point .. => identifier (m.describe v)
termination_by v
decreasing_by exact parent_lt _h

/-- The type of the machine. -/
def typeName (m : Machine) : String := pascalCase (identifier m.name)

/-- The enumeration of events. -/
def eventEnum (m : Machine) : String := m.typeName ++ "EventId"

/-- The enumeration of states. -/
def stateEnum (m : Machine) : String := m.typeName ++ "StateId"

/-- The enumeration of handlers. -/
def handlerEnum (m : Machine) : String := m.typeName ++ "Func"

/-- The type of the user's variables. -/
def varsType (m : Machine) : String := m.typeName ++ "Vars"

/-- The machine's type in capitals. -/
def constantName (m : Machine) : String :=
  String.ofList ((snakeCase m.typeName).toList.map Char.toUpper)

/-- The constant for the number of events. -/
def eventCount (m : Machine) : String := m.constantName ++ "_EVENT_ID_COUNT"

/-- The constant for the number of states. -/
def stateCount (m : Machine) : String := m.constantName ++ "_STATE_ID_COUNT"

/-- The member for a state. -/
def stateMember (m : Machine) (v : Nat) : String := pascalCase (m.stateName v)

/-- The function that enters a state. -/
def enterFn (m : Machine) (v : Nat) : String := m.stateName v ++ "_enter"

/-- The function that leaves a state. -/
def exitFn (m : Machine) (v : Nat) : String := m.stateName v ++ "_exit"

/-- The function that handles an event in a state. -/
def eventFn (m : Machine) (v : Nat) (event : String) : String :=
  m.stateName v ++ "_" ++ identifier event

/-- The member for the function that leaves a state. -/
def exitVariant (m : Machine) (v : Nat) : String := pascalCase (m.exitFn v)

/-- The member for the function that handles an event in a state. -/
def eventVariant (m : Machine) (v : Nat) (event : String) : String := pascalCase (m.eventFn v event)

/-- The last part of a pseudo-state's function name, by what it is. -/
def pseudoPart (m : Machine) (v : Nat) : String :=
  match m.kind v with
  | .initial => "initial_state"
  | .point .choice label => "choice_point_" ++ identifier label
  | .point .entry label => "entry_point_" ++ identifier label
  | .point .exit label => "exit_point_" ++ identifier label
  | .root _ | .state _ | .final => m.stateName v

/-- The text without underscores at its end. -/
def dropUnderscores (s : String) : String :=
  String.ofList (s.toList.reverse.dropWhile (· == '_')).reverse

/-- The function that pseudo-states with several callers share. -/
def pseudoFn (m : Machine) (v : Nat) : String :=
  (match m.holder v with
    | some p => m.stateName p
    | none => "root") ++ "_" ++ dropUnderscores (m.pseudoPart v) ++ "_transition"

end Statechart.Machine

namespace Statechart.Naming

/-- The member for an event. -/
def eventMember (event : String) : String := pascalCase (identifier event)

end Statechart.Naming
