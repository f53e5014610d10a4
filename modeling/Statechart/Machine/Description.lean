import Statechart.Machine.Tree

/-!
# Descriptions

Every vertex has a description. A state is described by its name, all else by where it lies, so a
description serves to name the target of a transition. Siblings are shown in the order of their
descriptions.
-/

namespace Statechart

/-- What the description of a vertex without a name adds to the description of its parent. -/
def Kind.placeName : Kind → String
  | initial => ".InitialState"
  | point .choice label => s!".ChoicePoint({label})"
  | point .entry label => s!".EntryPoint({label})"
  | point .exit label => s!".ExitPoint({label})"
  | final => ".FinalState"
  | root _ | state _ => ""

namespace Machine

/-- The description of a vertex. -/
def describe (m : Machine) (v : Nat) : String :=
  match m.kind v with
  | .root _ => "ROOT"
  | .state name => name
  | kind =>
    (match _h : m.parent v with
      | some p => m.describe p
      | none => "?") ++ kind.placeName
termination_by v
decreasing_by exact parent_lt _h

/-- Put a vertex before the first one whose description is not smaller. -/
def insertByDescription (m : Machine) (v : Nat) : List Nat → List Nat
  | [] => [v]
  | w :: rest =>
    if m.describe v ≤ m.describe w then v :: w :: rest else w :: m.insertByDescription v rest

/-- Vertices in the order of their descriptions; equals keep their order. -/
def sortByDescription (m : Machine) (vs : List Nat) : List Nat := vs.foldr m.insertByDescription []

/-- The children of a vertex in the order of their descriptions. -/
def sortedChildren (m : Machine) (v : Nat) : List Nat := m.sortByDescription (m.children v)

/-- The pseudo-states right inside a vertex, in the order of their descriptions. -/
def pseudoChildren (m : Machine) (v : Nat) : List Nat :=
  m.sortByDescription ((m.children v).filter fun c => (m.kind c).isPseudo)

/-- Inserting adds the vertex and keeps all others. -/
theorem insertByDescription_perm (m : Machine) (v : Nat) (vs : List Nat) :
    (m.insertByDescription v vs).Perm (v :: vs) := by
  induction vs with
  | nil => exact .refl _
  | cons w rest ih =>
    rw [insertByDescription]
    split
    · exact .refl _
    · exact (ih.cons w).trans (.swap v w rest)

/-- Sorting keeps the vertices. -/
theorem sortByDescription_perm (m : Machine) (vs : List Nat) :
    (m.sortByDescription vs).Perm vs := by
  induction vs with
  | nil => exact .refl _
  | cons v rest ih => exact (m.insertByDescription_perm v _).trans (ih.cons v)

/-- The children of a vertex are the same in any order. -/
theorem mem_sortedChildren {m : Machine} {v c : Nat} :
    c ∈ m.sortedChildren v ↔ m.parent c = some v := by
  rw [sortedChildren, (m.sortByDescription_perm _).mem_iff, mem_children]

/-- Everything inside `v`, itself first, siblings in the order of their descriptions. -/
def subtree (m : Machine) (v : Nat) : List Nat :=
  v :: (m.sortedChildren v).attach.flatMap fun ⟨c, _h⟩ => m.subtree c
termination_by m.size - v
decreasing_by
  have hparent := mem_sortedChildren.mp _h
  have := parent_lt hparent
  have := lt_size_of_parent hparent
  omega

/-- A subtree is a vertex and the subtrees right inside it. -/
theorem subtree_eq (m : Machine) (v : Nat) :
    m.subtree v = v :: (m.sortedChildren v).flatMap m.subtree := by
  rw [subtree]
  simp

/-- Put vertices on a stack, the last one first, so that they are taken off in their order. -/
def pushAll (vs stack : List Nat) : List Nat := vs.reverse.foldl (fun stack v => v :: stack) stack

/-- The vertices that were put on a stack are on top of it in their order. -/
theorem pushAll_eq (vs stack : List Nat) : pushAll vs stack = vs ++ stack := by
  rw [pushAll, List.foldl_reverse, List.foldr_cons_eq_append']

/-- The states that are met while a stack is worked off. A state makes room for what is right inside
it, and a pseudo-state is dropped with all that is inside it. -/
def workOff (m : Machine) : List Nat → List Nat
  | [] => []
  | v :: stack =>
    if (m.kind v).isState then v :: m.workOff (pushAll (m.sortedChildren v) stack)
      else m.workOff stack
termination_by stack => (stack.flatMap m.subtree).length
decreasing_by
  · rw [pushAll_eq, List.flatMap_append, List.flatMap_cons, subtree_eq, List.cons_append,
      List.length_cons]
    exact Nat.lt_succ_self _
  · rw [List.flatMap_cons, subtree_eq, List.cons_append, List.length_cons, List.length_append]
    omega

/-- All states, each before those inside it. -/
def states (m : Machine) : List Nat := m.workOff [root]

end Machine

namespace Behavior

/-- The text with line breaks shown as escapes. -/
def foldBreaks : List Char → List Char
  | [] => []
  | '\r' :: '\n' :: rest => '\\' :: 'n' :: foldBreaks rest
  | c :: rest => if c == '\n' then '\\' :: 'n' :: foldBreaks rest else c :: foldBreaks rest

/-- The action on one line. -/
def actionLine (b : Behavior) : String :=
  String.ofList (foldBreaks (Text.trimChars (b.action.getD "").toList))

end Behavior

namespace Machine

/-- A behavior as it is written on a diagram. -/
def diagramLine (m : Machine) (b : Behavior) : String :=
  let triggers := match b.triggers with
    | [] => []
    | [trigger] => [trigger]
    | triggers => ["(" ++ String.intercalate ", " triggers ++ ")"]
  let guard := if b.hasGuard then ["[" ++ Text.trim (b.guard.getD "") ++ "]"] else []
  let action := if b.hasAction then ["/ \x7b " ++ b.actionLine ++ " \x7d"] else []
  let target := match b.target with
    | some target => ["TransitionTo(" ++ m.describe target ++ ")"]
    | none => []
  String.intercalate " " (triggers ++ guard ++ action ++ target)

end Machine

end Statechart
