import Statechart.Code.Draft
import Statechart.Compile.Plan
import Statechart.Machine.Events

/-!
# Handlers

The functions that enter a state, leave it and handle its events. A transition leaves states up to
the least common ancestor, runs its action, enters states down to the target, and either ends there
or goes on with the transitions of a pseudo-state. Pseudo-states are compiled in place at most as
deep as there are vertices, so transitions that lead in a circle are found out.
-/

namespace Statechart

/-- What handlers are compiled with. -/
structure Compiler where
  machine : Machine
  plan : Plan
  expander : Snippet.Expander
  ctx : Context

namespace Compiler

open Draft

/-- Code of a behavior after expansion. -/
def expand (c : Compiler) (b : Behavior) (code : String) : Except Fault String :=
  (c.expander.expand c.ctx code).mapError (.expansion b)

/-- The guard of a behavior after expansion, if it has one. -/
def guardOf (c : Compiler) (b : Behavior) : Except Fault (Option String) :=
  if b.hasGuard then (c.expand b (Text.trim (b.guard.getD ""))).map some else .ok none

/-- A behavior: who has it and what it says, its guard, and the given body. -/
def behaviorBlock (c : Compiler) (b : Behavior) (body : Unit → Draft) : Draft :=
  emit [.comment (c.machine.describe b.owner ++ " behavior"),
      .comment ("uml: " ++ c.machine.diagramLine b)] >>
    given (c.guardOf b) fun guard => block (.behavior b guard) (body ())

/-- The action of a behavior, if it has one. -/
def action (c : Compiler) (b : Behavior) : Draft :=
  if b.hasAction then given (c.expand b (b.action.getD "")) fun code =>
    emit [.userCode code, .gap] else {}

/-- The remark that the event goes nowhere else anyway. -/
def nothingToStop : Stmt :=
  .comment ("No ancestor handles event. Can skip nulling `" ++ Naming.ancestorHandlerField ++ "`.")

/-- Keep the event from outer states, unless none of them handles it. -/
def release (quiet : Bool) : List Stmt := if quiet then [nothingToStop] else [.stopEvent ""]

/-- Whether entering a state may lead to another one at once. -/
def movesOnEnter (c : Compiler) (v : Nat) : Bool :=
  (c.machine.behaviorsOn v Trigger.enter).any (·.hasTransition)

/-- Enter a state. If that led elsewhere already, the transition at hand ends here. -/
def enterCall (c : Compiler) (quiet : Bool) (v : Nat) : List Stmt :=
  .enter v ::
    if c.movesOnEnter v then
      [.block (.movedOn v)
        (.comment
          ("`" ++ c.machine.describe v ++ "` enter behavior already completed a transition.") ::
          release quiet ++ [.ret ""]) true]
    else []

/-- Leave states up to the least common ancestor. -/
def leave (c : Compiler) (source : Nat) (path : Path) : Draft :=
  match c.machine.directExit source path with
  | .error invariant => fail (.broken source invariant)
  | .ok (true, state) => emit [.exit state]
  | .ok (false, _) =>
    if (c.machine.kind path.lca).isState then emit [.exitUpTo path.lca]
    else fail (.broken path.lca .ancestorIsState)

/-- Enter what lies on the way to the target. -/
def enterTowards (c : Compiler) (quiet : Bool) (path : Path) : List Stmt :=
  if path.enters.isEmpty then [.comment "Already in target. No entering required."]
  else
    (path.enters.flatMap fun v =>
      if (c.machine.kind v).isState then c.enterCall quiet v
      else [.comment
        (c.machine.describe v ++ " is a pseudo state and cannot have an `enter` trigger.")]) ++
    [.gap]

/-- End a transition in a state. -/
def completed (quiet : Bool) (target : Nat) : List Stmt :=
  [.comment "Step 4: complete transition. Ends event dispatch. No other behaviors are checked.",
    .settle target] ++ release quiet ++ [.ret ""]

/-- Go on with the function of a shared pseudo-state. -/
def proceedTo (p : Nat) : List Stmt :=
  [.comment "Finish transition by calling pseudo state transition function.", .proceed p,
    .ret (" // event processing immediately stops when a transition finishes. " ++
      "No other behaviors for this state are checked.")]

/-- What follows once the target is entered; `inline` compiles a pseudo-state in place. -/
def conclude (c : Compiler) (inline : Nat → Draft) (quiet : Bool) (target : Nat) : Draft :=
  match c.machine.completion target with
  | none => emit (completed quiet target)
  | some p => if c.plan.isShared p then emit (proceedTo p) else inline p

/-- The first step of a transition, once its path is found: leave states, if `check` says so and
there is anything to leave. -/
def departure (c : Compiler) (check : Bool) (source target : Nat) : Draft :=
  let path := c.machine.path source target
  let step := "Step 1: Exit states until we reach `" ++ c.machine.describe path.lca ++
    "` state (Least Common Ancestor for transition)."
  if c.machine.hasPath source target then
    if check && c.machine.exitRequired source target path then emit [.comment step] >>
      c.leave source path
    else emit [.comment (step ++ " Already at LCA, no exiting required.")]
  else fail (.broken source .pathEnds)

/-- The steps of a transition to `target`. -/
def transitionSteps (c : Compiler) (inline : Nat → Draft) (quiet check : Bool) (b : Behavior)
    (target : Nat) : Draft :=
  c.departure check b.owner target >>
    emit [.gap, .comment ("Step 2: Transition action: `" ++ b.actionLine ++ "`.")] >>
    c.action b >>
    emit (.gap :: .comment ("Step 3: Enter/move towards transition target `" ++
      c.machine.describe target ++ "`.") :: c.enterTowards quiet (c.machine.path b.owner target)) >>
    c.conclude inline quiet target

/-- A transition with all its steps; `check` tells whether states are to be left at all, and
`inline` compiles a pseudo-state in place. -/
def transitionWith (c : Compiler) (inline : Nat → Draft) (quiet check : Bool)
    (b : Behavior) : Draft :=
  match b.target with
  | none => fail (.broken b.owner .hasTarget)
  | some target => c.behaviorBlock b fun _ => c.transitionSteps inline quiet check b target

/-- The transitions of a pseudo-state in place, with so many levels left for further ones. -/
def inline (c : Compiler) (quiet : Bool) : Nat → Nat → Draft
  | 0, p => fail (.broken p .inliningEnds)
  | levels + 1, p =>
    let body := each ((c.machine.behaviorsOf p).filter (·.hasTransition)) fun b =>
      c.transitionWith (c.inline quiet levels) quiet true b >> emit [.gap]
    { body with code := [.inlined p body.code] }

/-- The levels of pseudo-states that may still be compiled in place, inside so many others. -/
def levelsAt (c : Compiler) (depth : Nat) : Nat := c.machine.size + 1 - depth

/-- A transition, inside so many pseudo-states that are compiled in place. -/
def transition (c : Compiler) (quiet check : Bool) (depth : Nat) (b : Behavior) : Draft :=
  c.transitionWith (c.inline quiet (c.levelsAt (depth + 1))) quiet check b

/-- Whether the action of a behavior decides itself if the event goes on to outer states. -/
def usesFlag (c : Compiler) (b : Behavior) : Except Fault Bool :=
  if b.hasAction then
    (c.expand b (b.action.getD "")).map fun code => Snippet.references code Snippet.consumeFlag
  else .ok false

/-- The declaration of the flag that an action sets. -/
def declareFlag (trigger : String) (quiet : Bool) : List Stmt :=
  (if quiet then
    [.comment ("note: no ancestor consumes this event, but `" ++ Snippet.consumeFlag ++
      "` is declared anyway because the action uses it.")]
  else []) ++
  [.line ("let mut " ++ Snippet.consumeFlag ++ " = " ++
    if trigger == Trigger.always then
      "false; // the `do` event is special in that it normally is not consumed."
    else
      "true; // events other than `do` are normally consumed by any event handler. " ++
        "Other event handlers in *this* state may still handle the event though."),
    .gap]

/-- What decides whether outer states get to handle the event. -/
def consume (trigger : String) (quiet flagged : Bool) : List Stmt :=
  .comment "Step 2: determine if ancestor gets to handle event next." ::
    if quiet then
      if flagged then
        [.comment ("No ancestor handles event. Ignore `" ++ Snippet.consumeFlag ++ "` flag.")]
      else [nothingToStop]
    else if flagged then [.block .consumed [.stopEvent " // consume event"] true]
    else if trigger == Trigger.always then [.comment "Don't consume special `do` event."]
    else [.stopEvent " // consume event"]

/-- A behavior without a transition. -/
def reaction (c : Compiler) (trigger : String) (quiet : Bool) (b : Behavior) : Draft :=
  let isEvent := Trigger.isEvent trigger
  given (if isEvent then c.usesFlag b else .ok false) fun flagged =>
    c.behaviorBlock b fun _ =>
      emit ((if flagged then declareFlag trigger quiet else []) ++
        [.comment ("Step 1: execute action `" ++ b.actionLine ++ "`")]) >>
      c.action b >>
      emit (if isEvent then consume trigger quiet flagged else [])

/-- Hand the event on to the next outer state that handles it. -/
def handOver (next : Option Nat) (event : String) : List Stmt :=
  match next with
  | none => [.comment ("No ancestor state handles `" ++ event ++ "` event."), .gap]
  | some a =>
    [.comment ("Setup handler for next ancestor that listens to `" ++ event ++ "` event."),
      .passTo a event, .gap]

/-- All behaviors of a state on a trigger, in the order of declaration. -/
def behaviorsFor (c : Compiler) (v : Nat) (trigger : String) : Draft :=
  let isEvent := Trigger.isEvent trigger
  let next := if isEvent then c.machine.nextHandler v trigger else none
  let quiet := next.isNone
  emit (if isEvent then handOver next trigger else []) >>
    each (c.machine.behaviorsOn v trigger) fun b =>
      (if b.hasTransition then c.transition quiet true 0 b else c.reaction trigger quiet b) >>
        emit [.gap]

/-- A generated function. -/
def routine (r : Routine) (body : Draft) : Draft := block (.routine r) body >> emit [.gap]

/-- The begin of entering a state: it takes over from the state around it. -/
def takeOver (c : Compiler) (v : Nat) : List Stmt :=
  [.comment "setup trigger/event handlers", .setExit v] ++
    (c.machine.eventsOf v).map (fun event => .setHandler event v) ++ [.gap]

/-- The function that enters a state. -/
def enterRoutine (c : Compiler) (v : Nat) : Draft :=
  routine (.enter v) (emit (c.takeOver v) >> c.behaviorsFor v Trigger.enter)

/-- The end of leaving a state: the state around it takes over. -/
def handBack (c : Compiler) (v : Nat) : Draft :=
  match c.machine.holder v with
  | none => emit [.comment "State machine root is a special case. It cannot be exited."]
  | some holder =>
    if (c.machine.kind holder).isState then
      emit ([.comment "adjust function pointers for this state's exit", .setExit holder] ++
        (c.machine.eventsOf v).map fun event =>
          .restoreHandler event (c.machine.nextHandler v event))
    else fail (.broken v .stateInsideState)

/-- The function that leaves a state. -/
def exitRoutine (c : Compiler) (v : Nat) : Draft :=
  routine (.exit v) (c.behaviorsFor v Trigger.exit >> c.handBack v)

/-- The function that handles an event in a state. -/
def eventRoutine (c : Compiler) (v : Nat) (event : String) : Draft :=
  routine (.event v event) (c.behaviorsFor v event)

/-- The function of a shared pseudo-state. Its callers may differ in the outer states that handle
the event, so the event is always kept from them. -/
def sharedRoutine (c : Compiler) (p : Nat) : Draft :=
  if c.plan.isShared p then routine (.shared p) (c.inline false (c.levelsAt 0) p)
  else fail (.broken p .hasSharedFunction)

/-- A line of slashes around titles. -/
def banner : Stmt := .line (String.ofList (List.replicate 80 '/'))

/-- All functions of a state and of the shared pseudo-states right inside it. -/
def stateRoutines (c : Compiler) (v : Nat) : Draft :=
  emit [.gap, banner, .comment ("event handlers for state " ++ c.machine.describe v),
    banner, .gap] >>
    c.enterRoutine v >>
    c.exitRoutine v >>
    each (c.machine.eventsOf v) (c.eventRoutine v) >>
    each (c.plan.sharedIn c.machine v) c.sharedRoutine

/-- Go from the root to its initial state. -/
def startTransition (c : Compiler) : Draft :=
  match c.machine.initialOf Machine.root with
  | none => emit [.comment "No initial state. Nothing to enter past the root."]
  | some initial => c.transition true false 0 { owner := Machine.root, target := some initial }

/-- Enter the root and go to its initial state. -/
def start (c : Compiler) : Draft := emit (c.enterCall true Machine.root) >> c.startTransition

end Compiler

end Statechart
