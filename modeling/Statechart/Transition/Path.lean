import Statechart.Machine.Tree

/-!
# Paths of transitions

A transition leaves vertices from its source upwards until it reaches the least common ancestor of
source and target, and then enters vertices downwards to its target. A transition from a vertex to
itself, or from an exit point to the state it belongs to, leaves that state and enters it again.

Going outwards ends in the root, unless it comes to a vertex that was put in itself. The search for
a least common ancestor goes outwards from both vertices, so a path is found only if both ways end;
a transition that enters its target again needs no search.
-/

namespace Statechart

/-- The vertices that a transition passes. -/
structure Path where
  /-- The vertex that is neither left nor entered. -/
  lca : Nat
  /-- The vertices to leave, innermost first. -/
  exits : List Nat
  /-- The vertices to enter, outermost first. -/
  enters : List Nat
deriving DecidableEq, Repr

namespace Machine

/-- Whether a transition leaves its target in order to enter it again. -/
def isSelfTransition (m : Machine) (source target : Nat) : Bool :=
  source == target || (m.kind source).isExitPoint && m.parent source == some target

/-- The innermost vertex that both vertices are or lie in. -/
def leastCommonAncestor (m : Machine) (a b : Nat) : Nat :=
  ((m.ancestorsAndSelf a).find? fun v => (m.ancestorsAndSelf b).contains v).getD root

/-- Whether going outwards from the vertex ends: neither it nor a vertex that it
lies in holds itself. -/
def isAnchored (m : Machine) (v : Nat) : Bool :=
  (m.ancestorsAndSelf v).all fun a => m.holder a != some a

/-- Whether the search for the path of a transition ends. -/
def hasPath (m : Machine) (source target : Nat) : Bool :=
  m.isSelfTransition source target || m.isAnchored source && m.isAnchored target

/-- The path over a given common ancestor. -/
def pathThrough (m : Machine) (source target lca : Nat) : Path where
  lca := lca
  exits := (m.ancestorsAndSelf source).takeWhile (· != lca)
  enters := ((m.ancestorsAndSelf target).takeWhile (· != lca)).reverse

/-- The path of a transition. -/
def path (m : Machine) (source target : Nat) : Path :=
  if m.isSelfTransition source target then
    match m.holder target with
    | some holder => m.pathThrough source target holder
    | none => ⟨target, [], []⟩
  else m.pathThrough source target (m.leastCommonAncestor source target)

end Machine

end Statechart
