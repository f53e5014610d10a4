import Statechart.Machine.Events
import Statechart.Machine.Validation
import Statechart.Proofs.Assembly

/-!
# Machines without problems

What a machine without problems promises to the code made of it, read off the list of problems once:
the machine starts somewhere, vertices lie in states only, no transition starts while a state is
being left, and every pseudo-state leads on.
-/

namespace Statechart.Machine

variable {m : Machine} {b : Behavior} {p v : Nat}

/-- A machine has no problems if it starts somewhere and none of its vertices has a problem. -/
theorem problems_eq_nil_iff :
    m.problems = [] ↔ (m.initialOf root).isSome ∧ ∀ v < m.size, m.vertexProblems v = [] := by
  rw [problems, List.append_eq_nil_iff, List.flatMap_eq_nil_iff]
  refine and_congr ?_ (by simp [ids])
  cases m.initialOf root <;> simp

/-- A vertex that may hold others is a state. -/
theorem isState_of_holdsChildren {kind : Kind} (h : holdsChildren kind) : kind.isState := by
  cases kind <;> first | rfl | cases h

/-- A state that is not final may hold vertices. -/
theorem holdsChildren_of_isState {kind : Kind} (h : kind.isState) (hfinal : kind ≠ .final) :
    holdsChildren kind := by
  cases kind with
  | root name => rfl
  | state name => rfl
  | final => exact absurd rfl hfinal
  | initial => cases h
  | point kind label => cases h

/-- Of a valid machine no vertex has a problem of any sort. -/
theorem vertexProblems_eq_nil (h : m.problems = []) (hv : v < m.size) :
    m.behaviorProblems v = [] ∧ m.childProblems v = [] ∧ m.initialTargetProblems v = [] := by
  have hall := (problems_eq_nil_iff.mp h).2 v hv
  simp only [vertexProblems, List.append_eq_nil_iff] at hall
  exact ⟨hall.1.1.2, hall.1.2, hall.2⟩

/-- A valid machine starts somewhere. -/
theorem exists_initialOf_root (h : m.problems = []) : ∃ i, m.initialOf root = some i :=
  Option.isSome_iff_exists.mp (problems_eq_nil_iff.mp h).1

/-- The initial pseudo-state of a vertex is one of its children. -/
theorem initialOf_spec (h : m.initialOf v = some p) :
    m.parent p = some v ∧ (m.kind p).isInitial := by
  rw [initialOf] at h
  have hinitial := List.find?_some h
  exact ⟨mem_children.mp (List.mem_of_find?_eq_some h), hinitial⟩

/-- An initial vertex is a pseudo-state. -/
theorem isPseudo_of_isInitial {kind : Kind} (h : kind.isInitial) : kind.isPseudo := by
  cases kind <;> first | rfl | cases h

/-- What a transition goes on with is a pseudo-state. -/
theorem isPseudo_of_completion (hp : m.completion v = some p) : (m.kind p).isPseudo := by
  rw [completion] at hp
  split at hp
  · next hpseudo => exact Option.some.inj hp ▸ hpseudo
  · exact isPseudo_of_isInitial (initialOf_spec hp).2

/-- In a valid machine vertices were put in the root and in named states only. -/
theorem holdsChildren_of_holder (h : m.problems = []) (hp : p < m.size)
    (hholder : m.holder v = some p) :
    holdsChildren (m.kind p) := by
  have hchild := (vertexProblems_eq_nil h hp).2.1
  rw [childProblems] at hchild
  split at hchild
  · cases hchild
  · next hcond =>
    have hsome : (m.contents p).isEmpty = false :=
      List.isEmpty_eq_false_iff_exists_mem.mpr ⟨v, mem_contents.mpr hholder⟩
    simpa only [hsome, Bool.not_false, Bool.and_true, Bool.not_eq_true,
      Bool.not_eq_false'] using hcond

/-- In a valid machine vertices lie in the root and in named states only. -/
theorem holdsChildren_of_parent (h : m.problems = []) (hparent : m.parent v = some p) :
    holdsChildren (m.kind p) :=
  holdsChildren_of_holder h (Nat.lt_trans (parent_lt hparent) (lt_size_of_parent hparent))
    (holder_of_parent hparent)

/-- In a valid machine vertices lie in states only. -/
theorem isState_of_parent (h : m.problems = []) (hparent : m.parent v = some p) :
    (m.kind p).isState :=
  isState_of_holdsChildren (holdsChildren_of_parent h hparent)

/-- The root of a valid machine has something inside it. -/
theorem children_root_ne_nil (h : m.problems = []) : m.children root ≠ [] := by
  obtain ⟨i, hi⟩ := exists_initialOf_root h
  exact List.ne_nil_of_mem (mem_children.mpr (initialOf_spec hi).1)

/-- In a valid machine nothing that a state does while it is left leads elsewhere. -/
theorem target_eq_none_of_handles_exit (h : m.problems = []) (hv : v < m.size)
    (hstate : (m.kind v).isState) (hb : b ∈ m.behaviorsOf v) (hexit : b.handles Trigger.exit) :
    b.target = none := by
  have hbehaviors := (vertexProblems_eq_nil h hv).1
  have hleaves : holdsChildren (m.kind v) → b.target = none := by
    intro hholds
    have heach : (if b.triggers.isEmpty then [Problem.noTrigger v b] else []) ++
        (if b.hasTransition && b.handles Trigger.exit then [.leavesOnExit v b] else []) = [] := by
      cases hkind : m.kind v <;> simp only [hkind, holdsChildren, Bool.false_eq_true] at hholds <;>
        simp only [behaviorProblems, hkind] at hbehaviors <;>
        exact List.flatMap_eq_nil_iff.mp hbehaviors b hb
    have hnot := (List.append_eq_nil_iff.mp heach).2
    rw [hexit, Bool.and_true] at hnot
    cases htarget : b.target with
    | none => rfl
    | some t => simp [Behavior.hasTransition, htarget] at hnot
  cases hkind : m.kind v with
  | root name => exact hleaves (by rw [hkind]; rfl)
  | state name => exact hleaves (by rw [hkind]; rfl)
  | final =>
    simp only [behaviorProblems, hkind] at hbehaviors
    split at hbehaviors
    · next hempty =>
      rw [List.isEmpty_iff] at hempty
      simp [hempty] at hb
    · cases hbehaviors
  | initial => simp [hkind, Kind.isState] at hstate
  | point kind label => simp [hkind, Kind.isState] at hstate

/-- In a valid machine every behavior of a state has a trigger. -/
theorem triggers_ne_nil (h : m.problems = []) (hv : v < m.size) (hstate : (m.kind v).isState)
    (hb : b ∈ m.behaviorsOf v) : b.triggers ≠ [] := by
  have hbehaviors := (vertexProblems_eq_nil h hv).1
  rw [behaviorProblems] at hbehaviors
  intro hnil
  cases hkind : m.kind v with
  | root name =>
    simp only [hkind] at hbehaviors
    simpa [hnil] using List.flatMap_eq_nil_iff.mp hbehaviors b hb
  | state name =>
    simp only [hkind] at hbehaviors
    simpa [hnil] using List.flatMap_eq_nil_iff.mp hbehaviors b hb
  | final =>
    simp only [hkind] at hbehaviors
    split at hbehaviors
    · next hempty =>
      rw [List.isEmpty_iff] at hempty
      simp [hempty] at hb
    · cases hbehaviors
  | initial => simp [hkind, Kind.isState] at hstate
  | point kind label => simp [hkind, Kind.isState] at hstate

/-- In a valid machine a pseudo-state has behaviors, and all of them lead on. -/
theorem pseudo_leads_on (h : m.problems = []) (hp : (m.kind p).isPseudo) :
    m.behaviorsOf p ≠ [] ∧ ∀ b ∈ m.behaviorsOf p, b.hasTransition := by
  have hbehaviors := (vertexProblems_eq_nil h (lt_size_of_isPseudo hp)).1
  have hboth : (if (m.behaviorsOf p).isEmpty then [Problem.deadEnd p] else []) ++
      (m.behaviorsOf p).flatMap (fun b => if b.hasTransition then [] else [.noTransition p b]) =
        [] := by
    cases hkind : m.kind p <;> simp only [hkind, Kind.isPseudo, Kind.isState, Bool.not_true,
      Bool.false_eq_true] at hp <;> simpa only [behaviorProblems, hkind] using hbehaviors
  obtain ⟨hdead, hleads⟩ := List.append_eq_nil_iff.mp hboth
  constructor
  · intro hnil
    simp [hnil] at hdead
  · intro b hb
    have := List.flatMap_eq_nil_iff.mp hleads b hb
    by_contra hnot
    simp [hnot] at this

end Statechart.Machine
