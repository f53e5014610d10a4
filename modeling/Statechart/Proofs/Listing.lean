import Mathlib.Data.List.Nodup
import Statechart.Compile.Plan
import Statechart.Proofs.Growth
import Statechart.Proofs.States
import Statechart.Proofs.Validity

/-!
# Every state is listed once

In a valid machine the walk down from the root comes to every state that lies in the root, because
vertices lie in states only, and it comes there once, because a vertex has one parent. So the
functions of states are written once each, and so are those of the shared pseudo-states, which are
listed along with the state that they lie in. A state that was put in itself, and what lies in it,
is not listed.
-/

namespace Statechart.Machine

variable {m : Machine} {a c c' p v w : Nat}

/-- A vertex lies in one child of another at most. -/
theorem eq_of_mem_ancestorsAndSelf (hc : m.parent c = some v) (hc' : m.parent c' = some v)
    (hw : c ∈ m.ancestorsAndSelf w) (hw' : c' ∈ m.ancestorsAndSelf w) : c = c' := by
  -- Climbing from `w`, the first of the two that is met cannot lie in the other.
  have hself {x y : Nat} (hx : m.parent x = some v) (hy : m.parent y = some v)
      (h : y ∈ m.ancestorsAndSelf x) : y = x := by
    rw [ancestorsAndSelf_of_parent hx, List.mem_cons] at h
    rcases h with h | h
    · exact h
    · exact absurd (le_of_mem_ancestorsAndSelf h) (Nat.not_le.mpr (parent_lt hy))
  induction w using climb (m := m) with
  | step w ih =>
    by_cases hne : w = c
    · exact (hself hc hc' (hne ▸ hw')).symm
    · by_cases hne' : w = c'
      · exact hself hc' hc (hne' ▸ hw)
      · obtain ⟨q, hq, hcq⟩ := exists_parent_of_mem hw hne
        obtain ⟨q', hq', hcq'⟩ := exists_parent_of_mem hw' hne'
        obtain rfl : q = q' := Option.some.inj (hq.symm.trans hq')
        exact ih q hq hcq hcq'

/-- What is listed for a vertex lies in it. -/
theorem mem_ancestorsAndSelf_of_mem_statesWithin (h : w ∈ m.statesWithin v) :
    v ∈ m.ancestorsAndSelf w := by
  induction v using descend (m := m) with
  | step v ih =>
    by_cases hv : (m.kind v).isState
    · rw [statesWithin_of_isState hv, List.mem_cons, List.mem_flatMap] at h
      rcases h with rfl | ⟨c, hc, hw⟩
      · exact self_mem_ancestorsAndSelf m w
      · have hparent := mem_sortedChildren.mp hc
        exact mem_ancestorsAndSelf_trans (mem_ancestorsAndSelf_of_parent hparent) (ih c hparent hw)
    · simp [statesWithin_of_not_isState hv] at h

/-- The states right inside a listed one are listed. -/
theorem mem_statesWithin_of_parent (hp : p ∈ m.statesWithin v) (hw : m.parent w = some p)
    (hstate : (m.kind w).isState) : w ∈ m.statesWithin v := by
  induction v using descend (m := m) with
  | step v ih =>
    by_cases hv : (m.kind v).isState
    · rw [statesWithin_of_isState hv, List.mem_cons, List.mem_flatMap] at hp ⊢
      rcases hp with rfl | ⟨c, hc, hpc⟩
      · refine .inr ⟨w, mem_sortedChildren.mpr hw, ?_⟩
        rw [statesWithin_of_isState hstate]
        exact List.mem_cons_self
      · exact .inr ⟨c, hc, ih c (mem_sortedChildren.mp hc) hpc⟩
    · simp [statesWithin_of_not_isState hv] at hp

/-- Only what lies in the root is listed. -/
theorem root_mem_of_mem_states (hv : v ∈ m.states) : root ∈ m.ancestorsAndSelf v :=
  mem_ancestorsAndSelf_of_mem_statesWithin (m.states_eq ▸ hv)

/-- The states of a valid machine that are listed are exactly the ones that lie in the root. -/
theorem Grown.mem_states (h : m.Grown) (hvalid : m.problems = []) :
    v ∈ m.states ↔ root ∈ m.ancestorsAndSelf v ∧ (m.kind v).isState := by
  constructor
  · intro hv
    exact ⟨root_mem_of_mem_states hv, isState_of_mem_states hv⟩
  · rintro ⟨hroot, hstate⟩
    induction v using climb (m := m) with
    | step v ih =>
      by_cases heq : v = root
      · rw [heq, states_eq, statesWithin_of_isState h.root_isState]
        exact List.mem_cons_self
      · obtain ⟨p, hp, hrootp⟩ := exists_parent_of_mem hroot heq
        have hlisted := ih p hp hrootp (isState_of_parent hvalid hp)
        rw [states_eq] at hlisted ⊢
        exact mem_statesWithin_of_parent hlisted hp hstate

/-- Only vertices of the machine are listed. -/
theorem lt_size_of_mem_states (h : m.IsTree) (hv : v ∈ m.states) : v < m.size :=
  h.grown.lt_size_of_root_mem (root_mem_of_mem_states hv)

/-- The states of a valid tree are exactly the ones that are listed. -/
theorem mem_states (h : m.IsTree) (hvalid : m.problems = []) :
    v ∈ m.states ↔ v < m.size ∧ (m.kind v).isState := by
  rw [h.grown.mem_states hvalid]
  exact and_congr_left fun _ => ⟨h.grown.lt_size_of_root_mem, h.root_mem_ancestorsAndSelf⟩

/-- Children in the order of their descriptions are all different. -/
theorem nodup_sortedChildren (m : Machine) (v : Nat) : (m.sortedChildren v).Nodup :=
  (m.sortByDescription_perm _).nodup_iff.mpr (List.nodup_range.filter _)

/-- No state is listed twice. -/
theorem nodup_statesWithin (m : Machine) (v : Nat) : (m.statesWithin v).Nodup := by
  induction v using descend (m := m) with
  | step v ih =>
    by_cases hv : (m.kind v).isState
    · rw [statesWithin_of_isState hv, List.nodup_cons, List.nodup_flatMap]
      refine ⟨fun hmem => ?_, fun c hc => ih c (mem_sortedChildren.mp hc), ?_⟩
      · obtain ⟨c, hc, hself⟩ := List.mem_flatMap.mp hmem
        have hle := le_of_mem_ancestorsAndSelf (mem_ancestorsAndSelf_of_mem_statesWithin hself)
        exact absurd (parent_lt (mem_sortedChildren.mp hc)) (Nat.not_lt.mpr hle)
      · refine (m.nodup_sortedChildren v).imp_of_mem fun {c c'} hc hc' hne w hw hw' => hne ?_
        exact eq_of_mem_ancestorsAndSelf (mem_sortedChildren.mp hc) (mem_sortedChildren.mp hc')
          (mem_ancestorsAndSelf_of_mem_statesWithin hw)
            (mem_ancestorsAndSelf_of_mem_statesWithin hw')
    · rw [statesWithin_of_not_isState hv]
      exact List.nodup_nil

/-- No state of a machine is listed twice. -/
theorem nodup_states (m : Machine) : m.states.Nodup := m.states_eq ▸ m.nodup_statesWithin root

/-- The pseudo-states right inside a vertex. -/
theorem mem_pseudoChildren : p ∈ m.pseudoChildren v ↔
    m.parent p = some v ∧ (m.kind p).isPseudo := by
  rw [pseudoChildren, (m.sortByDescription_perm _).mem_iff, List.mem_filter, mem_children]

/-- No pseudo-state is listed twice along with the states. -/
theorem nodup_pseudo (m : Machine) : (m.states.flatMap m.pseudoChildren).Nodup := by
  rw [List.nodup_flatMap]
  refine ⟨fun v _ => ?_, ?_⟩
  · exact (m.sortByDescription_perm _).nodup_iff.mpr ((List.nodup_range.filter _).filter _)
  · refine m.nodup_states.imp fun {v w} hne p hp hp' => hne ?_
    exact Option.some.inj ((mem_pseudoChildren.mp hp).1.symm.trans (mem_pseudoChildren.mp hp').1)

/-- The shared pseudo-states right inside a vertex. -/
theorem mem_sharedIn {plan : Plan} :
    p ∈ plan.sharedIn m v ↔ m.parent p = some v ∧ (m.kind p).isPseudo ∧ plan.isShared p := by
  rw [Plan.sharedIn, List.mem_filter, mem_pseudoChildren, and_assoc]

/-- No shared pseudo-state is listed twice along with the states. -/
theorem nodup_shared (m : Machine) (plan : Plan) : (m.states.flatMap (plan.sharedIn m)).Nodup := by
  have hshared := m.nodup_pseudo.filter plan.isShared
  rwa [List.filter_flatMap] at hshared

/-- What is listed along with a listed state lies in the root. -/
theorem root_mem_of_mem_sharedIn {plan : Plan} (hv : v ∈ m.states) (hp : p ∈ plan.sharedIn m v) :
    root ∈ m.ancestorsAndSelf p :=
  (root_mem_iff_of_parent (mem_sharedIn.mp hp).1).mpr (root_mem_of_mem_states hv)

/-- The shared pseudo-states of a valid machine that are listed along with the states are exactly
the ones that lie in the root. -/
theorem Grown.mem_shared (h : m.Grown) (hvalid : m.problems = []) {plan : Plan} :
    p ∈ m.states.flatMap (plan.sharedIn m) ↔
      root ∈ m.ancestorsAndSelf p ∧ (m.kind p).isPseudo ∧ plan.isShared p := by
  rw [List.mem_flatMap]
  constructor
  · rintro ⟨v, hv, hp⟩
    exact ⟨root_mem_of_mem_sharedIn hv hp, (mem_sharedIn.mp hp).2⟩
  · rintro ⟨hroot, hpseudo, hshared⟩
    have hne : p ≠ root := by
      rintro rfl
      simp [Kind.isPseudo, h.root_isState] at hpseudo
    obtain ⟨v, hv, hrootv⟩ := exists_parent_of_mem hroot hne
    exact ⟨v, (h.mem_states hvalid).mpr ⟨hrootv, isState_of_parent hvalid hv⟩,
      mem_sharedIn.mpr ⟨hv, hpseudo, hshared⟩⟩

end Statechart.Machine
