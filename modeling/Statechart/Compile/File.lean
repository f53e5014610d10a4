import Statechart.Compile.Handler
import Statechart.Config
import Statechart.Machine.Validation
import Statechart.Naming.Collision

/-!
# Generated files

A generated file declares the ids of events and states, the user's variables, the references to
handlers, and the machine itself with its dispatch functions and the handlers of every state.
Nothing is generated unless the machine has no problems, its names do not collide, and every handler
compiles.
-/

namespace Statechart

open Draft

/-- A block with a fixed text in front, and a gap behind it. -/
def item (head : String) (body : List Stmt) : List Stmt := [.block (.text head) body true, .gap]

/-- The enumeration members of a list of names, numbered from the given one. -/
def numbered (first : Nat) : List (String × String) → List Stmt
  | [] => []
  | (name, note) :: rest =>
    .line (name ++ " = " ++ toString first ++ "," ++ note) :: numbered (first + 1) rest

/-- A constant that gives a number. -/
def countConstant (name : String) (count : Nat) : List Stmt :=
  [.line ("pub const " ++ name ++ ": usize = " ++ toString count ++ ";"), .gap]

namespace Machine

/-- The reference to every handler of a machine, state by state. -/
def handlers (m : Machine) : List Routine :=
  m.states.flatMap fun v => .exit v :: (m.eventsOf v).map (.event v)

/-- The member that refers to a function. -/
def routineVariant (m : Machine) (r : Routine) : String := Naming.pascalCase (m.routineName r)

/-- The remark behind the event that outer states see as well. -/
def eventNote (event : String) : String :=
  if event == Trigger.always then
    " // The `do` event is special. State event handlers do not consume this event " ++
      "(ancestors all get it too) unless a transition occurs."
  else ""

/-- The ids of the events. -/
def eventDeclarations (m : Machine) : List Stmt :=
  [.line "/// Events the state machine reacts to",
    .line "#[derive(Debug, Clone, Copy, PartialEq, Eq, Hash)]"] ++
  item ("pub enum " ++ m.eventEnum)
    (numbered 0 (m.events.map fun event => (Naming.eventMember event, eventNote event))) ++
  countConstant m.eventCount m.events.length

/-- The ids of the states. -/
def stateDeclarations (m : Machine) : List Stmt :=
  [.line "/// State identifiers", .line "#[derive(Debug, Clone, Copy, PartialEq, Eq, Hash)]"] ++
  item ("pub enum " ++ m.stateEnum) (numbered 0 (m.states.map fun v => (m.stateMember v, ""))) ++
  countConstant m.stateCount m.states.length

/-- The references to handlers. -/
def handlerDeclarations (m : Machine) : List Stmt :=
  [.line "/// Handler references stored in the dispatch slots",
    .line "#[derive(Debug, Clone, Copy, PartialEq, Eq)]"] ++
  item ("enum " ++ m.handlerEnum) (m.handlers.map fun r => .line (m.routineVariant r ++ ","))

/-- The user's variables. -/
def varsDeclaration (m : Machine) (config : Config) (vars : List AutoVar) : List Stmt :=
  if config.hasVars then
    [.line "/// User variables", .line "#[derive(Debug, Default)]"] ++
    item ("pub struct " ++ m.varsType)
      ((if Text.isBlank config.variableDeclarations.toList then []
        else [.userCode config.variableDeclarations]) ++
      vars.map fun var => .line var.field)
  else []

/-- The machine's own fields. -/
def machineDeclaration (m : Machine) (config : Config) : List Stmt :=
  [.line "/// Generated state machine. Not thread safe: dispatch one event at a time.",
    .line "#[derive(Debug)]"] ++
  item ("pub struct " ++ m.typeName)
    ([.line "/// Active state. Read freely, never write.",
      .line ("pub " ++ Naming.stateIdField ++ ": " ++ m.stateEnum ++ ","),
      .line (Naming.ancestorHandlerField ++ ": Option<" ++ m.handlerEnum ++ ">,"),
      .line (Naming.eventHandlersField ++ ": [Option<" ++ m.handlerEnum ++ ">; " ++ m.eventCount ++
        "],"),
      .line (Naming.exitHandlerField ++ ": Option<" ++ m.handlerEnum ++ ">,")] ++
    if config.hasVars then [.line ("pub " ++ Naming.varsField ++ ": " ++ m.varsType ++ ",")]
      else [])

/-- The default value of a machine. -/
def defaultDeclaration (m : Machine) : List Stmt :=
  item ("impl Default for " ++ m.typeName)
    [.block (.text "fn default() -> Self") [.line "Self::new()"] true]

/-- The function that makes a machine. -/
def constructor (m : Machine) (config : Config) : List Stmt :=
  .line "/// Create the state machine. Call `start` before dispatching events." ::
  item "pub fn new() -> Self"
    [.block (.text "Self")
      ([.line (Naming.stateIdField ++ ": " ++ m.stateEnum ++ "::" ++ m.stateMember root ++ ","),
        .line (Naming.ancestorHandlerField ++ ": None,"),
        .line (Naming.eventHandlersField ++ ": [None; " ++ m.eventCount ++ "],"),
        .line (Naming.exitHandlerField ++ ": None,")] ++
      if config.hasVars then [.line (Naming.varsField ++ ": " ++ m.varsType ++ "::default(),")]
        else [])
      true]

/-- The function that dispatches an event to the active state and then to outer ones. -/
def dispatcher (m : Machine) (this : String) : List Stmt :=
  .line "/// Dispatch one event. Handlers run to completion before this returns." ::
  item ("pub fn dispatch_event(&mut self, event_id: " ++ m.eventEnum ++ ")")
    [.line ("let mut behavior_func = " ++ this ++ "." ++ Naming.eventHandlersField ++
      "[event_id as usize];"),
      .gap,
      .block (.text "while let Some(func) = behavior_func")
        [.line (ancestorSlot this ++ " = None;"),
          .line (this ++ "." ++ Naming.callHandlerFn ++ "(func);"),
          .line ("behavior_func = " ++ ancestorSlot this ++ ";")]
        true]

/-- The loop that leaves states until a given one is active. -/
def exitLoopBlock : Stmt := .block .whileExit [.block .exitReached [.stopLoop] true, .callExit] true

/-- The function that leaves states until a given one is active. -/
def exitLoop (m : Machine) : List Stmt :=
  [.comment "Exits states until `desired_state_exit_handler` is the current exit handler.",
    .comment "Used when the active leaf state is not known at compile time."] ++
  item ("fn " ++ Naming.exitUpToFn ++ "(&mut self, desired_state_exit_handler: " ++
    m.handlerEnum ++ ")")
    [exitLoopBlock]

/-- The function that runs a handler given by reference. -/
def handlerCalls (m : Machine) (this : String) : List Stmt :=
  item ("fn " ++ Naming.callHandlerFn ++ "(&mut self, func: " ++ m.handlerEnum ++ ")")
    [.block (.text "match func")
      (m.handlers.map fun r =>
        .line (m.handlerEnum ++ "::" ++ m.routineVariant r ++ " => " ++
          this ++ "." ++ m.routineName r ++ "(),"))
      true]

/-- A function that gives the name of each member of an enumeration. -/
def nameFunction (function enum : String) (members : List (String × String)) : Stmt :=
  .block (.text ("pub fn " ++ function ++ "(id: " ++ enum ++ ") -> &'static str"))
    [.block (.text "match id")
      (members.map fun (member, name) =>
        .line (enum ++ "::" ++ member ++ " => " ++ Text.quoted name ++ ","))
      true]
    true

/-- The functions that give the names of states and events. -/
def nameFunctions (m : Machine) : List Stmt :=
  [.gap, .line "/// State name as written in the model",
    nameFunction "state_id_to_string" m.stateEnum (m.states.map fun v =>
      (m.stateMember v, m.describe v)),
    .gap, .line "/// Event name as written in the model",
    nameFunction "event_id_to_string" m.eventEnum
      (m.events.map fun event => (Naming.eventMember event, event))]

end Machine

/-- The first line of every generated file. -/
def fileBanner : Stmt := .line "// Autogenerated with oxichart 0.1.0."

/-- The checks that generated functions are exempt from. -/
def allowedLints : Stmt :=
  .line ("#[allow(dead_code, unreachable_code, unused_mut, unused_variables, " ++
    "unused_assignments, clippy::needless_return)]")

namespace Compiler

/-- All declarations before the functions of the machine. -/
def declarations (c : Compiler) (config : Config) (vars : List AutoVar) : List Stmt :=
  fileBanner :: (if Text.isBlank config.fileTop.toList then [] else [.userCode config.fileTop]) ++
    [.gap] ++ c.machine.eventDeclarations ++ c.machine.stateDeclarations ++
    c.machine.varsDeclaration config vars ++ c.machine.handlerDeclarations ++
    c.machine.machineDeclaration config ++ c.machine.defaultDeclaration ++ [allowedLints]

/-- The functions of the machine. -/
def functions (c : Compiler) (config : Config) : Draft :=
  emit (c.machine.constructor config ++
      [.line ("/// Enter the root state and follow its initial transition. " ++
        "Call once before dispatching events.")]) >>
    block (.text "pub fn start(&mut self)") c.start >>
    emit (.gap :: c.machine.dispatcher c.ctx.machine ++ c.machine.exitLoop ++
      c.machine.handlerCalls c.ctx.machine) >>
    each c.machine.states c.stateRoutines >>
    emit c.machine.nameFunctions

/-- The whole file. -/
def file (c : Compiler) (config : Config) (vars : List AutoVar) : Draft :=
  emit (c.declarations config vars) >>
    block (.text ("impl " ++ c.machine.typeName)) (c.functions config)

end Compiler

/-- Why no file is generated. -/
inductive CompileError where
  | invalid (problems : List Problem)
  | autoVar (error : AutoVarError)
  | collision (collision : Naming.Collision)
  | fault (fault : Fault)
  /-- A text is indented in a way that cannot be cut off between characters. -/
  | unevenIndent
deriving DecidableEq, Repr

/-- The wording of a compile error. -/
def CompileError.message (m : Machine) : CompileError → String
  | invalid problems =>
    "Invalid state machine: " ++ String.intercalate "; " (problems.map (Problem.message m))
  | autoVar error => error.message
  | collision c => c.message
  | fault f => f.message m
  | unevenIndent => "Indentation ends inside a character"

/-- The text of a draft that has no fault. -/
def Draft.render (m : Machine) (ctx : Context) (style : Style) (draft : Draft) :
    Except CompileError String :=
  match Stmt.writeAll m ctx.machine { style := style } draft.code, draft.fault with
  | none, _ => .error .unevenIndent
  | some _, some f => .error (.fault f)
  | some page, none => .ok page.text

/-- Why there is no file on the page if the variables cannot be read: the texts of the configuration
that stand in front of them are written by then. -/
def Compiler.refusal (c : Compiler) (config : Config) (page : Page) (e : AutoVarError) :
    CompileError :=
  match Stmt.writeAll c.machine c.ctx.machine page (c.declarations config []) with
  | none => .unevenIndent
  | some _ => .autoVar e

namespace Machine

/-- The file for a machine, whatever problems it has, with a given expander. -/
def generateWith (m : Machine) (config : Config) (expander : Snippet.Expander) (ctx : Context) :
    Except CompileError String :=
  match m.collision with
  | some c => .error (.collision c)
  | none =>
    let c : Compiler := ⟨m, m.plan, expander, ctx⟩
    match config.autoVars with
    | .error e => .error (c.refusal config { style := config.style } e)
    | .ok vars => (c.file config vars).render m ctx config.style

/-- The file for a machine. -/
def generate (m : Machine) (config : Config) : Except CompileError String :=
  match m.problems, config.expander with
  | [], .ok expander => m.generateWith config expander {}
  | [], .error e => .error (.autoVar e)
  | problems, _ => .error (.invalid problems)

end Machine

end Statechart
