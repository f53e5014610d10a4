import Statechart.Code.Page
import Statechart.Naming.Names
import Statechart.Snippet.Reference

/-!
# Generated code

The code of a machine before it is text: statements that enter and leave states, set handlers, and
end the handling of an event, with blocks for functions and guarded behaviors. The machine keeps
three kinds of slots: the exit function of the active state, a handler for each event, and the
handler of the next outer state for the event at hand. Code is written to a page in one way only.
-/

namespace Statechart

/-- The functions that are generated for the vertices of a machine. -/
inductive Routine where
  | enter (v : Nat)
  | exit (v : Nat)
  | event (v : Nat) (name : String)
  /-- The transitions of a pseudo-state that is reached from several places. -/
  | shared (p : Nat)
deriving DecidableEq, Repr

/-- What stands in front of a block. -/
inductive Head where
  /-- A fixed text. -/
  | text (line : String)
  | routine (r : Routine)
  /-- A behavior, perhaps with a guard. -/
  | behavior (b : Behavior) (guard : Option String)
  /-- The question whether entering `v` led to another state. -/
  | movedOn (v : Nat)
  /-- The question whether an action consumed its event. -/
  | consumed
  /-- Again and again, as long as there is a current exit function. -/
  | whileExit
  /-- The question whether the current exit function is the one to stop at. -/
  | exitReached
deriving DecidableEq, Repr

/-- A statement, a comment or a block. -/
inductive Stmt where
  /-- A line of fixed text. -/
  | line (text : String)
  | comment (text : String)
  /-- Code of the user, of any number of lines. -/
  | userCode (text : String)
  /-- A blank line, if more code follows. -/
  | gap
  | enter (v : Nat)
  | exit (v : Nat)
  /-- Leave states until `v` is the active one. -/
  | exitUpTo (v : Nat)
  /-- Make the exit function of `v` the current one. -/
  | setExit (v : Nat)
  /-- Let `v` handle the event. -/
  | setHandler (event : String) (v : Nat)
  /-- Let the given outer state handle the event again, or nobody. -/
  | restoreHandler (event : String) (v : Option Nat)
  /-- Hand the event at hand on to `v`. -/
  | passTo (v : Nat) (event : String)
  /-- Keep the event at hand from outer states. -/
  | stopEvent (note : String)
  /-- Record that `v` is the active state. -/
  | settle (v : Nat)
  /-- Go on with the transitions of a shared pseudo-state. -/
  | proceed (p : Nat)
  /-- Run the exit function that a loop has found to be the current one. -/
  | callExit
  /-- End the loop around. -/
  | stopLoop
  | ret (note : String)
  /-- A block; it stays open when compiling its body failed. -/
  | block (head : Head) (body : List Stmt) (closed : Bool)
  /-- The transitions of a pseudo-state in place. -/
  | inlined (p : Nat) (body : List Stmt)
deriving Repr

namespace Machine

/-- The reference to a state's exit function. -/
def exitRef (m : Machine) (v : Nat) : String := m.handlerEnum ++ "::" ++ m.exitVariant v

/-- The reference to a state's handler of an event. -/
def eventRef (m : Machine) (v : Nat) (event : String) : String :=
  m.handlerEnum ++ "::" ++ m.eventVariant v event

/-- The slot for the exit function of the active state. -/
def exitSlot (this : String) : String := this ++ "." ++ Naming.exitHandlerField

/-- The slot for the handler of an event. -/
def eventSlot (m : Machine) (this event : String) : String :=
  this ++ "." ++ Naming.eventHandlersField ++ "[" ++ m.eventEnum ++ "::" ++
    Naming.eventMember event ++ " as usize]"

/-- The slot for the handler of the next outer state. -/
def ancestorSlot (this : String) : String := this ++ "." ++ Naming.ancestorHandlerField

/-- The name of a generated function. -/
def routineName (m : Machine) : Routine → String
  | .enter v => m.enterFn v
  | .exit v => m.exitFn v
  | .event v event => m.eventFn v event
  | .shared p => m.pseudoFn p

end Machine

namespace Head

open Machine (exitSlot)

/-- Write what stands in front of a block. A guard of several lines is re-indented. -/
def write (m : Machine) (this : String) (page : Page) : Head → Option Page
  | text line => some (page.append line.toList)
  | routine r => some (page.append ("fn " ++ m.routineName r ++ "(&mut self)").toList)
  | behavior _ none => some page
  | behavior _ (some guard) =>
    let condition := ("if " ++ guard).toList
    if guard.toList.contains '\n' then page.appendLines condition else some (page.append condition)
  | movedOn v =>
    some (page.append ("if " ++ exitSlot this ++ " != Some(" ++ m.exitRef v ++ ")").toList)
  | consumed => some (page.append ("if " ++ Snippet.consumeFlag).toList)
  | whileExit => some (page.append ("while let Some(handler) = " ++ exitSlot this).toList)
  | exitReached => some (page.append "if handler == desired_state_exit_handler".toList)

/-- What stands behind the closing brace. -/
def trailing (m : Machine) : Head → String
  | behavior b _ => " // end of behavior for " ++ m.describe b.owner
  | _ => ""

end Head

namespace Stmt

open Machine (exitSlot ancestorSlot)

/-- The line that a statement is written as; blocks and gaps have none. -/
def lineText (m : Machine) (this : String) : Stmt → String
  | line text => text
  | comment text => "// " ++ text
  | enter v => this ++ "." ++ m.enterFn v ++ "();"
  | exit v => this ++ "." ++ m.exitFn v ++ "();"
  | exitUpTo v => this ++ "." ++ Naming.exitUpToFn ++ "(" ++ m.exitRef v ++ ");"
  | setExit v => exitSlot this ++ " = Some(" ++ m.exitRef v ++ ");"
  | setHandler event v => m.eventSlot this event ++ " = Some(" ++ m.eventRef v event ++ ");"
  | restoreHandler event (some v) =>
    m.eventSlot this event ++ " = Some(" ++ m.eventRef v event ++
      "); // the next ancestor that handles this event is " ++ m.describe v
  | restoreHandler event none =>
    m.eventSlot this event ++ " = None; // no ancestor listens to this event"
  | passTo v event => ancestorSlot this ++ " = Some(" ++ m.eventRef v event ++ ");"
  | stopEvent note => ancestorSlot this ++ " = None;" ++ note
  | settle v =>
    this ++ "." ++ Naming.stateIdField ++ " = " ++ m.stateEnum ++ "::" ++ m.stateMember v ++ ";"
  | proceed p => this ++ "." ++ m.pseudoFn p ++ "();"
  | callExit => this ++ "." ++ Naming.callHandlerFn ++ "(handler);"
  | stopLoop => "break;"
  | ret note => "return;" ++ note
  | userCode _ | gap | block .. | inlined .. => ""

mutual

/-- Write a statement; fails when the indentation of user code cannot be cut off. -/
def write (m : Machine) (this : String) (page : Page) : Stmt → Option Page
  | gap => some page.wantBlank
  | userCode text => page.appendLines text.toList
  | block head body closed => do
    let opened := (← head.write m this page).openBlock
    let filled ← writeAll m this opened body
    pure (if closed then filled.closeBlock (head.trailing m).toList else filled)
  | inlined _ body => writeAll m this page body
  | stmt => some (page.appendLine (stmt.lineText m this).toList)

/-- Write statements one after the other. -/
def writeAll (m : Machine) (this : String) (page : Page) : List Stmt → Option Page
  | [] => some page
  | stmt :: rest => do writeAll m this (← write m this page stmt) rest

end

end Stmt

end Statechart
