import Statechart.Machine.Description

/-!
# The list of states

States are listed by working off a stack that the root is put on first. What is on the stack is
listed one subtree after the other, so the list can be told by walking down from the root: a state,
then what is listed for its children in the order of their descriptions. Whatever is to be shown of
the list is shown along that walk.
-/

namespace Statechart.Machine

variable {m : Machine} {v w : Nat}

/-- Induction along the walk that lists states. -/
theorem descend {motive : Nat → Prop} (v : Nat)
    (step : ∀ v, (∀ c, m.parent c = some v → motive c) → motive v) : motive v := by
  induction hn : m.size - v using Nat.strongRecOn generalizing v with
  | ind n ih =>
    subst hn
    refine step v fun c hc => ih (m.size - c) ?_ c rfl
    have := parent_lt hc
    have := lt_size_of_parent hc
    omega

/-- The states inside `v`, itself first, each before those inside it; nothing inside a
pseudo-state counts. -/
def statesWithin (m : Machine) (v : Nat) : List Nat :=
  if (m.kind v).isState then
    v :: (m.sortedChildren v).attach.flatMap fun ⟨c, _h⟩ => m.statesWithin c
  else []
termination_by m.size - v
decreasing_by
  have hparent := mem_sortedChildren.mp _h
  have := parent_lt hparent
  have := lt_size_of_parent hparent
  omega

/-- What is listed for a state. -/
theorem statesWithin_of_isState (h : (m.kind v).isState) :
    m.statesWithin v = v :: (m.sortedChildren v).flatMap m.statesWithin := by
  rw [statesWithin, if_pos h]
  simp

/-- Nothing is listed for a pseudo-state. -/
theorem statesWithin_of_not_isState (h : ¬ (m.kind v).isState) : m.statesWithin v = [] := by
  rw [statesWithin, if_neg h]

/-- A stack is worked off one subtree after the other. -/
theorem workOff_eq (m : Machine) (stack : List Nat) :
    m.workOff stack = stack.flatMap m.statesWithin := by
  fun_induction workOff m stack with
  | case1 => rfl
  | case2 v stack h ih =>
    rw [ih, pushAll_eq, List.flatMap_append, List.flatMap_cons, statesWithin_of_isState h,
      List.cons_append]
  | case3 v stack h ih => rw [ih, List.flatMap_cons, statesWithin_of_not_isState h, List.nil_append]

/-- The list of states is what is listed for the root. -/
theorem states_eq (m : Machine) : m.states = m.statesWithin root := by
  rw [states, workOff_eq, List.flatMap_singleton]

/-- Only states are listed. -/
theorem isState_of_mem_statesWithin (h : w ∈ m.statesWithin v) : (m.kind w).isState := by
  induction v using descend (m := m) with
  | step v ih =>
    by_cases hv : (m.kind v).isState
    · rw [statesWithin_of_isState hv, List.mem_cons, List.mem_flatMap] at h
      rcases h with rfl | ⟨c, hc, hw⟩
      · exact hv
      · exact ih c (mem_sortedChildren.mp hc) hw
    · simp [statesWithin_of_not_isState hv] at h

/-- Only states are in the list of states. -/
theorem isState_of_mem_states (h : v ∈ m.states) : (m.kind v).isState :=
  isState_of_mem_statesWithin (m.states_eq ▸ h)

end Statechart.Machine
