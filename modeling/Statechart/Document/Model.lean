import Statechart.Machine.Kind

/-!
# Model documents

A model document describes a statechart by nesting: every vertex lists its behaviors and a state
lists the vertices inside it. Targets of transitions are given by description.
-/

namespace Statechart

/-- What a vertex does, on which triggers, and where it goes then. -/
structure BehaviorDoc where
  triggers : List String := []
  guard : Option String := none
  action : Option String := none
  /-- The description of the vertex that a transition leads to. -/
  target : Option String := none
deriving DecidableEq, Repr

/-- A vertex with everything inside it. -/
inductive VertexDoc where
  | state (name : String) (behaviors : List BehaviorDoc) (vertices : List VertexDoc)
  | initial (behaviors : List BehaviorDoc)
  | point (kind : PointKind) (label : String) (behaviors : List BehaviorDoc)
  | final
deriving Repr

/-- A whole statechart. -/
structure ModelDoc where
  name : String
  description : Option String := none
  /-- The behaviors of the root. -/
  behaviors : List BehaviorDoc := []
  /-- The vertices right below the root. -/
  vertices : List VertexDoc := []
deriving Repr

end Statechart
