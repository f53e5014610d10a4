import Statechart.Text.White
import Statechart.Text.LetterCase

/-!
# Triggers

A trigger is compared in lower case and without surrounding white space. Two triggers are reserved
for entering and leaving a state; every other one is an event that is dispatched at run time.
-/

namespace Statechart.Trigger

/-- The trigger of behavior that runs on entering a state. -/
def enter : String := "enter"

/-- The trigger of behavior that runs on leaving a state. -/
def exit : String := "exit"

/-- The event that every machine knows. -/
def always : String := "do"

/-- The form of a trigger that is compared. -/
def normalize (trigger : String) : String := Text.lowercase (Text.trim trigger)

/-- Whether the trigger is dispatched at run time. -/
def isEvent (trigger : String) : Bool := !(trigger == enter || trigger == exit)

end Statechart.Trigger
