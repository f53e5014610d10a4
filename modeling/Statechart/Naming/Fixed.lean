/-!
# Fixed names

The names of functions and fields that every generated machine has, whatever its states are.
-/

namespace Statechart.Naming

/-- The field that holds the handler of the next outer state for the current event. -/
def ancestorHandlerField : String := "ancestor_event_handler"

/-- The field that holds the handler of each event. -/
def eventHandlersField : String := "current_event_handlers"

/-- The field that holds the exit function of the active state. -/
def exitHandlerField : String := "current_state_exit_handler"

/-- The field that holds the id of the active state. -/
def stateIdField : String := "state_id"

/-- The field that holds the user's variables. -/
def varsField : String := "vars"

/-- The function that leaves states up to a given one. -/
def exitUpToFn : String := "exit_up_to_state_handler"

/-- The function that runs a handler given by reference. -/
def callHandlerFn : String := "call_handler"

/-- The functions that every generated machine declares. -/
def fixedFns : List String :=
  ["new", "start", "dispatch_event", exitUpToFn, callHandlerFn, "state_id_to_string",
    "event_id_to_string"]

end Statechart.Naming
