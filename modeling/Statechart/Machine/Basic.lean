import Statechart.Machine.Kind
import Statechart.Trigger

/-!
# State machines

A machine is a list of vertices, each of which names the vertex that it was put in, and a list of
behaviors, each of which names the vertex that owns it. A vertex is known by its position; the root
comes first. Vertices and behaviors are only ever added, so positions keep their meaning.

A vertex is meant to be put in one declared before it, which is then its parent. Nothing but care
keeps the caller from putting a new vertex in itself, since its position is in use by the time it is
looked up. Such a vertex holds itself and has no parent.
-/

namespace Statechart

/-- What a vertex does on its triggers: a guard, an action and the target of a
transition, all optional. -/
structure Behavior where
  owner : Nat := 0
  /-- Normalized triggers, each once. -/
  triggers : List String := []
  guard : Option String := none
  action : Option String := none
  target : Option Nat := none
deriving DecidableEq, Repr

namespace Behavior

/-- Add a trigger, unless it is there already. -/
def addTrigger (b : Behavior) (trigger : String) : Behavior :=
  let trigger := Trigger.normalize trigger
  if b.triggers.contains trigger then b else { b with triggers := b.triggers ++ [trigger] }

/-- Whether the behavior reacts to the trigger. -/
def handles (b : Behavior) (trigger : String) : Bool := b.triggers.contains trigger

/-- Whether the text is there and is not blank. -/
def hasText : Option String → Bool
  | some text => !Text.isBlank text.toList
  | none => false

/-- Whether there is code to decide if the behavior applies. -/
def hasGuard (b : Behavior) : Bool := hasText b.guard

/-- Whether there is code to run. -/
def hasAction (b : Behavior) : Bool := hasText b.action

/-- Whether the behavior leads somewhere. -/
def hasTransition (b : Behavior) : Bool := b.target.isSome

end Behavior

/-- A vertex: what it is and inside which vertex it lies. -/
structure Vertex where
  kind : Kind
  parent : Option Nat
deriving DecidableEq, Repr

/-- A state machine. -/
structure Machine where
  vertices : Array Vertex
  /-- All behaviors in the order they were added. -/
  behaviors : List Behavior
deriving DecidableEq, Repr

namespace Machine

/-- The vertex that everything else lies in. -/
def root : Nat := 0

/-- A machine with nothing but its root. -/
def new (name : String) : Machine := ⟨#[⟨.root name, none⟩], []⟩

/-- The number of vertices. -/
def size (m : Machine) : Nat := m.vertices.size

/-- All vertices in the order of declaration. -/
def ids (m : Machine) : List Nat := List.range m.size

/-- What a vertex is; a position that is not in use reads as a final state. -/
def kind (m : Machine) (v : Nat) : Kind := (m.vertices[v]?.map (·.kind)).getD .final

/-- The vertex that `v` was put in, which may be `v` itself. -/
def holder (m : Machine) (v : Nat) : Option Nat := m.vertices[v]?.bind (·.parent)

/-- The vertex that `v` lies in, which is declared before it. -/
def parent (m : Machine) (v : Nat) : Option Nat := (m.holder v).filter (· < v)

/-- The vertices right inside `v`, in the order of declaration. -/
def children (m : Machine) (v : Nat) : List Nat :=
  m.ids.filter fun c => m.parent c == some v

/-- The vertices that were put in `v`, in the order of declaration. -/
def contents (m : Machine) (v : Nat) : List Nat :=
  m.ids.filter fun c => m.holder c == some v

/-- The behaviors of `v`, in the order of declaration. -/
def behaviorsOf (m : Machine) (v : Nat) : List Behavior :=
  m.behaviors.filter fun b => b.owner == v

/-- The name of the machine. -/
def name (m : Machine) : String :=
  match m.kind root with
  | .root name => name
  | _ => ""

/-- Declare a vertex inside `parent`; it gets the next free position. -/
def addVertex (m : Machine) (parent : Nat) (kind : Kind) : Machine :=
  { m with vertices := m.vertices.push ⟨kind, some parent⟩ }

/-- Declare a vertex, provided that the vertex it is put in exists by then. -/
def addVertex? (m : Machine) (parent : Nat) (kind : Kind) : Option Machine :=
  let next := m.addVertex parent kind
  if parent < next.size then some next else none

/-- Add a behavior of `owner`. -/
def addBehavior (m : Machine) (owner : Nat) (b : Behavior) : Machine :=
  { m with behaviors := m.behaviors ++ [{ b with owner := owner }] }

/-- Add a behavior, provided that its owner exists. -/
def addBehavior? (m : Machine) (owner : Nat) (b : Behavior) : Option Machine :=
  if owner < m.size then some (m.addBehavior owner b) else none

/-- A vertex was put in its parent. -/
theorem holder_of_parent {m : Machine} {v p : Nat} (h : m.parent v = some p) :
    m.holder v = some p :=
  (Option.filter_eq_some_iff.mp h).1

/-- A vertex that was put in one declared before it has that one for a parent. -/
theorem parent_of_holder {m : Machine} {v p : Nat} (h : m.holder v = some p) (hlt : p < v) :
    m.parent v = some p :=
  Option.filter_eq_some_iff.mpr ⟨h, by simpa using hlt⟩

/-- A parent is declared before its children. -/
theorem parent_lt {m : Machine} {v p : Nat} (h : m.parent v = some p) : p < v := by
  simpa using (Option.filter_eq_some_iff.mp h).2

/-- A vertex that was put somewhere is in use. -/
theorem lt_size_of_holder {m : Machine} {v p : Nat} (h : m.holder v = some p) : v < m.size := by
  obtain ⟨vertex, hv, -⟩ := Option.bind_eq_some_iff.mp h
  exact (Array.getElem?_eq_some_iff.mp hv).1

/-- A vertex with a parent is in use. -/
theorem lt_size_of_parent {m : Machine} {v p : Nat} (h : m.parent v = some p) : v < m.size :=
  lt_size_of_holder (holder_of_parent h)

/-- The contents of a vertex are the vertices that were put in it. -/
theorem mem_contents {m : Machine} {v c : Nat} : c ∈ m.contents v ↔ m.holder c = some v := by
  simp only [contents, ids, List.mem_filter, List.mem_range, beq_iff_eq, and_iff_right_iff_imp]
  exact lt_size_of_holder

/-- The children of a vertex are the vertices with that parent. -/
theorem mem_children {m : Machine} {v c : Nat} : c ∈ m.children v ↔ m.parent c = some v := by
  simp only [children, ids, List.mem_filter, List.mem_range, beq_iff_eq, and_iff_right_iff_imp]
  exact lt_size_of_parent

end Machine

end Statechart
