import Statechart.Transition.Path

/-!
# Leaving states

A transition of a pseudo-state that stays inside the pseudo-state's parent leaves nothing. Otherwise
the states to leave depend on which state is active, unless the source has nothing inside it and
only one state is left: then its exit function is called directly.
-/

namespace Statechart

/-- What must hold of a machine so that its handlers can be compiled. -/
inductive Invariant where
  | pathStartsAtSource | exitPointHasParent | hasSharedFunction | stateInsideState | hasTarget
  | ancestorIsState | inliningEnds | pathEnds
deriving DecidableEq, Repr

/-- How the violation of an invariant is worded. -/
def Invariant.message : Invariant → String
  | pathStartsAtSource => "expected transition path exit list to start with source vertex"
  | exitPointHasParent => "exit point has no parent"
  | hasSharedFunction => "pseudo state has no shared function"
  | stateInsideState => "state must be nested in a state"
  | hasTarget => "transition behavior has no target"
  | ancestorIsState => "least common ancestor of a transition must be a state"
  | inliningEnds => "inlined pseudo state transitions loop back on themselves"
  | pathEnds => "going outwards from source or target of a transition never ends"

namespace Machine

/-- Whether a transition along the path has anything to leave. -/
def exitRequired (m : Machine) (source target : Nat) (path : Path) : Bool :=
  if (m.kind source).isExitPoint && m.parent source == some target then true
  else !((m.kind source).isPseudo && m.parent source == some path.lca)

/-- The state that is left first, and whether its exit function can be called directly. An exit
point stands for its parent. -/
def directExit (m : Machine) (source : Nat) (path : Path) : Except Invariant (Bool × Nat) :=
  let leaf := (m.contents source).isEmpty
  if (m.kind source).isExitPoint then
    if path.exits.head? != some source then .error .pathStartsAtSource
    else
      match m.parent source with
      | some state => .ok ((m.kind state).isState && leaf && path.exits.length - 1 ≤ 1, state)
      | none => .error .exitPointHasParent
  else .ok ((m.kind source).isState && leaf && path.exits.length ≤ 1, source)

end Machine

end Statechart
