import Statechart.Machine.Description

/-!
# Validation

What is wrong with a machine, before any code is made of it. A machine without problems starts
somewhere, has triggers on the behaviors of its states and transitions on those of its
pseudo-states, and keeps the initial transitions of a state inside that state.
-/

namespace Statechart

/-- A reason why a machine is refused. -/
inductive Problem where
  | noInitialState
  | manyInitialStates (v : Nat) (count : Nat)
  | noTrigger (v : Nat) (b : Behavior)
  | leavesOnExit (v : Nat) (b : Behavior)
  | finalWithBehaviors (v : Nat)
  | deadEnd (v : Nat)
  | noTransition (v : Nat) (b : Behavior)
  | childrenNotAllowed (v : Nat)
  | initialLeadsOutside (v parent target : Nat)
deriving DecidableEq, Repr

/-- The wording of a problem. -/
def Problem.message (m : Machine) : Problem → String
  | noInitialState => "State machine root has no initial state"
  | manyInitialStates v count =>
    "`" ++ m.describe v ++ "` has " ++ toString count ++ " initial states"
  | noTrigger v b => "`" ++ m.describe v ++ "` behavior `" ++ m.diagramLine b ++ "` has no trigger"
  | leavesOnExit v b =>
    "`" ++ m.describe v ++ "` behavior `" ++ m.diagramLine b ++ "` transitions from an exit trigger"
  | finalWithBehaviors v => "Final state `" ++ m.describe v ++ "` cannot have behaviors"
  | deadEnd v => "Pseudo state `" ++ m.describe v ++ "` has no transition"
  | noTransition v b =>
    "Pseudo state `" ++ m.describe v ++ "` behavior `" ++ m.diagramLine b ++
    "` must have a transition"
  | childrenNotAllowed v => "`" ++ m.describe v ++ "` cannot have children"
  | initialLeadsOutside v parent target =>
    "Initial state `" ++ m.describe v ++ "` must target a vertex inside `" ++ m.describe parent ++
      "`, not `" ++ m.describe target ++ "`"

namespace Machine

/-- Problems with the number of initial states in a vertex. -/
def initialProblems (m : Machine) (v : Nat) : List Problem :=
  let count := ((m.children v).filter fun c => (m.kind c).isInitial).length
  if 1 < count then [.manyInitialStates v count] else []

/-- Problems with the behaviors of a vertex, by what it is. -/
def behaviorProblems (m : Machine) (v : Nat) : List Problem :=
  let behaviors := m.behaviorsOf v
  match m.kind v with
  | .root _ | .state _ =>
    behaviors.flatMap fun b =>
      (if b.triggers.isEmpty then [.noTrigger v b] else []) ++
        if b.hasTransition && b.handles Trigger.exit then [.leavesOnExit v b] else []
  | .final => if behaviors.isEmpty then [] else [.finalWithBehaviors v]
  | .initial | .point .. =>
    (if behaviors.isEmpty then [.deadEnd v] else []) ++
      behaviors.flatMap fun b => if b.hasTransition then [] else [.noTransition v b]

/-- Whether vertices may lie in a vertex of this kind. -/
def holdsChildren : Kind → Bool
  | .root _ | .state _ => true
  | _ => false

/-- Problems with vertices that were put where none may be. -/
def childProblems (m : Machine) (v : Nat) : List Problem :=
  if !holdsChildren (m.kind v) && !(m.contents v).isEmpty then [.childrenNotAllowed v] else []

/-- Problems with initial transitions that lead out of the state they begin. -/
def initialTargetProblems (m : Machine) (v : Nat) : List Problem :=
  match (m.kind v).isInitial, m.parent v with
  | true, some parent =>
    ((m.behaviorsOf v).filterMap (·.target)).flatMap fun target =>
      if target == parent || !m.isWithin parent target then [.initialLeadsOutside v parent target]
        else []
  | _, _ => []

/-- Everything that is wrong with one vertex. -/
def vertexProblems (m : Machine) (v : Nat) : List Problem :=
  m.initialProblems v ++ m.behaviorProblems v ++ m.childProblems v ++ m.initialTargetProblems v

/-- Everything that is wrong with the machine. -/
def problems (m : Machine) : List Problem :=
  (if (m.initialOf root).isNone then [.noInitialState] else []) ++ m.ids.flatMap m.vertexProblems

end Machine

end Statechart
