import Statechart.Machine.Basic

/-!
# The tree of vertices

Climbing from a vertex to its parent ends, because a parent is declared before its children; the
vertices on the way are its ancestors.
-/

namespace Statechart.Machine

/-- The vertex, its parent, and so on up to the root. -/
def ancestorsAndSelf (m : Machine) (v : Nat) : List Nat :=
  v :: match _h : m.parent v with
    | some p => m.ancestorsAndSelf p
    | none => []
termination_by v
decreasing_by exact parent_lt _h

/-- The vertices that `v` lies in, innermost first. -/
def ancestors (m : Machine) (v : Nat) : List Nat := (m.ancestorsAndSelf v).tail

/-- The vertices that are met on the way out of `v`; a vertex that holds itself is met again. -/
def outward (m : Machine) (v : Nat) : List Nat :=
  m.ancestors v ++ ((m.holder v).filter (· == v)).toList

/-- The number of vertices that `v` lies in. -/
def depth (m : Machine) (v : Nat) : Nat := (m.ancestors v).length

/-- Whether `v` is `a` or lies in it. -/
def isWithin (m : Machine) (a v : Nat) : Bool := (m.ancestorsAndSelf v).contains a

/-- The initial pseudo-state of a vertex. -/
def initialOf (m : Machine) (v : Nat) : Option Nat :=
  (m.children v).find? fun c => (m.kind c).isInitial

/-- The pseudo-state that a transition to `target` goes on with, once it has entered the target. -/
def completion (m : Machine) (target : Nat) : Option Nat :=
  if (m.kind target).isPseudo then some target else m.initialOf target

end Statechart.Machine
