/-!
# Kinds of vertices

A statechart consists of states, in which a machine can rest, and pseudo-states, which transitions
only pass through.
-/

namespace Statechart

/-- The pseudo-states that carry a label. -/
inductive PointKind where
  | choice | entry | exit
deriving DecidableEq, Repr

/-- What a vertex is. -/
inductive Kind where
  /-- The machine itself, which is never left. -/
  | root (name : String)
  /-- A state with a name. -/
  | state (name : String)
  /-- The pseudo-state that says where its parent begins. -/
  | initial
  /-- A pseudo-state with a label. -/
  | point (kind : PointKind) (label : String)
  /-- The state that marks the end of its parent. -/
  | final
deriving DecidableEq, Repr

namespace Kind

/-- Whether a machine can rest in the vertex. -/
def isState : Kind → Bool
  | root _ | state _ | final => true
  | initial | point .. => false

/-- Whether transitions only pass through the vertex. -/
def isPseudo (kind : Kind) : Bool := !kind.isState

/-- Whether the vertex is an exit point. -/
def isExitPoint : Kind → Bool
  | point .exit _ => true
  | _ => false

/-- Whether the vertex says where its parent begins. -/
def isInitial : Kind → Bool
  | initial => true
  | _ => false

/-- The name or label of the vertex. -/
def label? : Kind → Option String
  | root name | state name => some name
  | point _ label => some label
  | initial | final => none

end Kind

end Statechart
