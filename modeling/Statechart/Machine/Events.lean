import Statechart.Machine.Tree
import Statechart.Text.Sorted

/-!
# Events

The events of a vertex are the triggers of its behaviors other than entering and leaving. An event
that a state does not handle is handled by the nearest state around it that does.
-/

namespace Statechart.Machine

/-- The behaviors of `v` that react to the trigger, in the order of declaration. -/
def behaviorsOn (m : Machine) (v : Nat) (trigger : String) : List Behavior :=
  (m.behaviorsOf v).filter (·.handles trigger)

/-- The events that `v` reacts to itself. -/
def eventsOf (m : Machine) (v : Nat) : List String :=
  Text.sortedSet (((m.behaviorsOf v).flatMap (·.triggers)).filter Trigger.isEvent)

/-- All events of the machine. -/
def events (m : Machine) : List String :=
  Text.sortedSet (Trigger.always :: m.ids.flatMap m.eventsOf)

/-- Whether `v` has a behavior for the trigger. -/
def reactsTo (m : Machine) (v : Nat) (trigger : String) : Bool :=
  (m.behaviorsOf v).any (·.handles trigger)

/-- The nearest vertex around `v` that reacts to the trigger. -/
def nextHandler (m : Machine) (v : Nat) (trigger : String) : Option Nat :=
  (m.outward v).find? fun a => m.reactsTo a trigger

end Statechart.Machine
