import Statechart.Document.Model
import Statechart.Machine.Description

/-!
# From documents to machines

The vertices of a model are declared outside in, siblings in their order. Then every behavior is
added, the root's first, with its target looked up by description; surrounding white space does not
count. Descriptions must be unique for that.
-/

namespace Statechart

/-- Why a model gives no machine. -/
inductive BuildError where
  | unknownTarget (owner target : String)
  | duplicateVertex (description : String)
deriving DecidableEq, Repr

/-- The wording of a build error. -/
def BuildError.message : BuildError → String
  | unknownTarget owner target =>
    "`" ++ owner ++ "` transitions to unknown vertex `" ++ target ++ "`"
  | duplicateVertex description => "Vertex `" ++ description ++ "` is declared more than once"

/-- A machine in the making: its vertices so far, and the behaviors still to be added. -/
structure Skeleton where
  machine : Machine
  pending : List (Nat × BehaviorDoc)

namespace Skeleton

/-- Declare a vertex and note its behaviors. -/
def declare (sk : Skeleton) (parent : Nat) (kind : Kind) (behaviors : List BehaviorDoc) :
    Skeleton where
  machine := sk.machine.addVertex parent kind
  pending := sk.pending ++ behaviors.map fun b => (sk.machine.size, b)

mutual

/-- Declare a vertex and everything inside it. -/
def add (parent : Nat) (sk : Skeleton) : VertexDoc → Skeleton
  | .state name behaviors vertices =>
    addAll sk.machine.size (sk.declare parent (.state name) behaviors) vertices
  | .initial behaviors => sk.declare parent .initial behaviors
  | .point kind label behaviors => sk.declare parent (.point kind label) behaviors
  | .final => sk.declare parent .final []

/-- Declare vertices one after the other. -/
def addAll (parent : Nat) (sk : Skeleton) : List VertexDoc → Skeleton
  | [] => sk
  | vertex :: rest => addAll parent (add parent sk vertex) rest

end

end Skeleton

/-- The first string that occurs a second time; `seen` are the strings before. -/
def firstRepeated (seen : List String) : List String → Option String
  | [] => none
  | s :: rest => if seen.contains s then some s else firstRepeated (s :: seen) rest

namespace BehaviorDoc

/-- The behavior that a document describes, with targets looked up among the
descriptions of the vertices. -/
def build (b : BehaviorDoc) (owner : String) (descriptions : List String) :
    Except BuildError Behavior := do
  let target ← match b.target with
    | none => pure none
    | some target =>
      match descriptions.idxOf? (Text.trim target) with
      | some v => pure (some v)
      | none => throw (.unknownTarget owner target)
  let plain : Behavior := { guard := b.guard, action := b.action, target := target }
  pure (b.triggers.foldl Behavior.addTrigger plain)

end BehaviorDoc

namespace ModelDoc

/-- The vertices of a model, without behaviors, and the behaviors to be added. -/
def skeleton (model : ModelDoc) : Skeleton :=
  Skeleton.addAll Machine.root
    ⟨Machine.new model.name, model.behaviors.map fun b => (Machine.root, b)⟩ model.vertices

/-- The machine that a model describes. -/
def build (model : ModelDoc) : Except BuildError Machine := do
  let sk := model.skeleton
  let descriptions := sk.machine.ids.map sk.machine.describe
  match firstRepeated [] descriptions with
  | some description => throw (.duplicateVertex description)
  | none =>
    sk.pending.foldlM
      (fun m (owner, b) => do
        pure (m.addBehavior owner (← b.build (sk.machine.describe owner) descriptions)))
      sk.machine

end ModelDoc

end Statechart
