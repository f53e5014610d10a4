import Statechart.Naming.Collision
import Statechart.Proofs.Renaming.Machine

/-!
# Names and messages under other numbers

Generated names and messages are made from kinds, descriptions and events, never from the numbers of
vertices. So machines that differ in numbers only have the same names, the same collision of names
if there is one, and the same problems, although the problems are listed in the order of the
vertices.
-/

namespace Statechart

/-- A problem with other numbers for vertices. -/
def Problem.rename (f : Nat → Nat) : Problem → Problem
  | noInitialState => noInitialState
  | manyInitialStates v count => manyInitialStates (f v) count
  | noTrigger v b => noTrigger (f v) (b.rename f)
  | leavesOnExit v b => leavesOnExit (f v) (b.rename f)
  | finalWithBehaviors v => finalWithBehaviors (f v)
  | deadEnd v => deadEnd (f v)
  | noTransition v b => noTransition (f v) (b.rename f)
  | childrenNotAllowed v => childrenNotAllowed (f v)
  | initialLeadsOutside v parent target => initialLeadsOutside (f v) (f parent) (f target)

namespace Machine

variable {m m' : Machine} {f : Nat → Nat}

/-- The name of a state's functions by what the state is. -/
theorem stateName_eq (m : Machine) (v : Nat) :
    m.stateName v = match m.kind v with
      | .root _ => "root"
      | .state name => Naming.identifier name
      | .final => (m.parent v).elim "root" m.stateName ++ "_final"
      | .initial | .point .. => Naming.identifier (m.describe v) := by
  rw [stateName]
  cases m.kind v with
  | root name => rfl
  | state name => rfl
  | initial => rfl
  | point kind label => rfl
  | final =>
    refine congrArg (· ++ "_final") ?_
    split
    · next hp => rw [hp, Option.elim_some]
    · next hp => rw [hp, Option.elim_none]

namespace Renaming

variable (h : m.Renaming m' f)
include h

/-- The types of the machine are the same. -/
theorem typeName : m'.typeName = m.typeName := by
  have hkind := h.kind Machine.root
  rw [h.root] at hkind
  rw [Machine.typeName, Machine.typeName, Machine.name, Machine.name, hkind]

/-- The names of states are the same. -/
theorem stateName (v : Nat) : m'.stateName (f v) = m.stateName v := by
  induction v using climb (m := m) with
  | step v ih =>
    have hplace : (m'.parent (f v)).elim "root" m'.stateName =
        (m.parent v).elim "root" m.stateName := by
      rw [h.parent]
      cases hp : m.parent v with
      | none => rfl
      | some p => exact ih p hp
    rw [stateName_eq, stateName_eq, h.kind, hplace, h.describe]

/-- The names of the functions of pseudo-states are the same. -/
theorem pseudoFn (v : Nat) : m'.pseudoFn (f v) = m.pseudoFn v := by
  have hpart : m'.pseudoPart (f v) = m.pseudoPart v := by
    rw [pseudoPart, pseudoPart, h.kind, h.stateName]
  rw [Machine.pseudoFn, Machine.pseudoFn, hpart, h.holder]
  cases m.holder v with
  | none => rfl
  | some p => simp only [Option.map_some, h.stateName]

/-- The uses of names for a state are the same. -/
theorem stateUses (v : Nat) : m'.stateUses (f v) = m.stateUses v := by
  simp only [Machine.stateUses, stateMember, enterFn, exitFn, exitVariant, eventVariant, eventFn,
    h.describe, h.stateName, h.eventsOf, h.pseudoChildren, List.map_map, Function.comp_def,
    h.pseudoFn]

/-- The first collision of names is the same. -/
theorem collision : m'.collision = m.collision := by
  have huses : m'.uses = m.uses := by
    rw [uses, h.events, h.states, List.flatMap_map,
      List.flatMap_congr fun v _ => h.stateUses v, uses]
  rw [Machine.collision, huses, Machine.collision]

/-- Behaviors are drawn alike. -/
theorem diagramLine (b : Behavior) : m'.diagramLine (b.rename f) = m.diagramLine b := by
  simp only [Machine.diagramLine, Behavior.triggers_rename, Behavior.hasGuard_rename,
    Behavior.guard_rename, Behavior.hasAction_rename, Behavior.actionLine_rename,
    Behavior.target_rename]
  cases b.target with
  | none => rfl
  | some t =>
    simp only [Option.map_some, h.describe]
    rfl

/-- Problems are worded alike. -/
theorem message (problem : Problem) : (problem.rename f).message m' = problem.message m := by
  unfold Problem.message
  cases problem <;> simp only [Problem.rename, h.describe, h.diagramLine]

/-- A vertex has the same problems with initial pseudo-states. -/
theorem initialProblems (v : Nat) :
    m'.initialProblems (f v) = (m.initialProblems v).map (Problem.rename f) := by
  have hcount : ((m'.children (f v)).filter fun c => (m'.kind c).isInitial).length =
      ((m.children v).filter fun c => (m.kind c).isInitial).length := by
    have hlength := ((h.children v).filter fun c => (m'.kind c).isInitial).length_eq
    rw [List.filter_map, List.length_map] at hlength
    rw [hlength]
    exact congrArg _ (List.filter_congr fun c _ => congrArg _ (h.kind c))
  simp only [Machine.initialProblems, hcount]
  split <;> rfl

/-- A vertex has the same problems with its behaviors. -/
theorem behaviorProblems (v : Nat) :
    m'.behaviorProblems (f v) = (m.behaviorProblems v).map (Problem.rename f) := by
  simp only [Machine.behaviorProblems, h.kind, h.behaviorsOf]
  cases m.kind v with
  | root | state =>
    simp only [List.flatMap_map, List.map_flatMap, List.map_append,
      apply_ite (List.map (Problem.rename f)), Behavior.hasTransition_rename]
    rfl
  | initial | point =>
    simp only [List.flatMap_map, List.map_flatMap, List.map_append,
      apply_ite (List.map (Problem.rename f)), Behavior.hasTransition_rename, List.isEmpty_map]
    rfl
  | final =>
    simp only [List.isEmpty_map, apply_ite (List.map (Problem.rename f))]
    rfl

/-- A vertex has the same problems with what lies in it. -/
theorem childProblems (v : Nat) :
    m'.childProblems (f v) = (m.childProblems v).map (Problem.rename f) := by
  simp only [Machine.childProblems, h.kind, h.tree.contents_eq_children,
    h.tree'.contents_eq_children, h.isEmpty_children]
  split <;> rfl

/-- A vertex has the same problems with where it begins. -/
theorem initialTargetProblems (v : Nat) :
    m'.initialTargetProblems (f v) = (m.initialTargetProblems v).map (Problem.rename f) := by
  simp only [Machine.initialTargetProblems, h.kind, h.parent, h.behaviorsOf]
  cases (m.kind v).isInitial with
  | false => rfl
  | true =>
    cases m.parent v with
    | none => rfl
    | some p =>
      simp only [Option.map_some, List.filterMap_map, List.map_flatMap,
        apply_ite (List.map (Problem.rename f))]
      have htargets : (m.behaviorsOf v).filterMap ((·.target) ∘ Behavior.rename f) =
          ((m.behaviorsOf v).filterMap (·.target)).map f := (List.map_filterMap ..).symm
      rw [htargets, List.flatMap_map]
      refine List.flatMap_congr fun t _ => ?_
      rw [h.beq_eq, h.isWithin]
      rfl

/-- The machines have the same problems, up to order. -/
theorem problems : m'.problems.Perm (m.problems.map (Problem.rename f)) := by
  have hvertex (v : Nat) : m'.vertexProblems (f v) =
      (m.vertexProblems v).map (Problem.rename f) := by
    simp only [vertexProblems, h.initialProblems, h.behaviorProblems, h.childProblems,
      h.initialTargetProblems, List.map_append]
  have hstart : (m'.initialOf Machine.root).isNone = (m.initialOf Machine.root).isNone := by
    have hinitial := h.initialOf Machine.root
    rw [h.root] at hinitial
    rw [hinitial, Option.isNone_map]
  have hperm := h.ids.flatMap_right m'.vertexProblems
  rw [List.flatMap_map, List.flatMap_congr fun v _ => hvertex v, ← List.map_flatMap] at hperm
  rw [Machine.problems, hstart, Machine.problems, List.map_append,
    apply_ite (List.map (Problem.rename f))]
  exact hperm.append_left _

/-- One machine is valid exactly if the other one is. -/
theorem problems_eq_nil_iff : m'.problems = [] ↔ m.problems = [] := by
  rw [← List.length_eq_zero_iff, h.problems.length_eq, List.length_map, List.length_eq_zero_iff]

end Renaming

end Machine

end Statechart
