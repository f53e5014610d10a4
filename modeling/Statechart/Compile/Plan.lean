import Statechart.Machine.Description

/-!
# Sharing of pseudo-states

The transitions of a pseudo-state are compiled in place where a transition passes through it once.
A pseudo-state that is reached from several places gets a function of its own. A place is a compiled
body, not a behavior: a behavior of a state is compiled once for each of its triggers.
-/

namespace Statechart

/-- The number of places that each pseudo-state is reached from. -/
structure Plan where
  sites : Array Nat := #[]
deriving DecidableEq, Repr

namespace Machine

/-- How often a behavior is compiled. -/
def renderCount (m : Machine) (b : Behavior) : Nat :=
  if (m.kind b.owner).isPseudo then 1 else b.triggers.length

/-- The places from which the behavior leads on into the pseudo-state. -/
def sitesFrom (m : Machine) (p : Nat) (b : Behavior) : Nat :=
  if b.target.bind m.completion == some p then m.renderCount b else 0

/-- The number of places that a pseudo-state is reached from; starting the machine is one. -/
def callSites (m : Machine) (p : Nat) : Nat :=
  (if m.initialOf root == some p then 1 else 0) +
    m.behaviors.foldr (fun b count => m.sitesFrom p b + count) 0

/-- The plan of a machine. -/
def plan (m : Machine) : Plan := ⟨(m.ids.map m.callSites).toArray⟩

end Machine

namespace Plan

/-- The number of places that a pseudo-state is reached from. -/
def sitesOf (plan : Plan) (p : Nat) : Nat := plan.sites.getD p 0

/-- Whether the pseudo-state has a function of its own. -/
def isShared (plan : Plan) (p : Nat) : Bool := 1 < plan.sitesOf p

/-- The number of pseudo-states with a function of their own. -/
def sharedCount (plan : Plan) : Nat := (plan.sites.toList.filter (1 < ·)).length

/-- The pseudo-states right inside a vertex that have a function of their own, in the order of their
descriptions. -/
def sharedIn (plan : Plan) (m : Machine) (v : Nat) : List Nat :=
  (m.pseudoChildren v).filter plan.isShared

end Plan

/-- The plan of a machine shares what is reached from several places. -/
theorem Machine.isShared_plan {m : Machine} {p : Nat} (hp : p < m.size) :
    m.plan.isShared p = decide (1 < m.callSites p) := by
  simp [plan, Plan.isShared, Plan.sitesOf, ids, hp]

end Statechart
