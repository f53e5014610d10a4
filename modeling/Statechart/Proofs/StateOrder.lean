import Statechart.Proofs.Listing
import Statechart.Proofs.Sorting

/-!
# The order of states

Working off the stack lists the states in the order of a walk through the tree that enters children
by their descriptions, and children with the same description as they were declared. The walk does
not enter pseudo-states. The list is told apart from all others by that rule alone, whichever way
children are sorted. A state comes behind the one around it, and what is listed of a state stands
together, with the state in front.
-/

namespace Statechart.Machine

variable {m : Machine} {p v w : Nat} {vs ws ws' : List Nat}

/-! ## Sorting by description -/

/-- The second list has the vertices of the first one in the order of their descriptions, and
vertices with the same description in the order that they had. -/
structure SortedBy (m : Machine) (vs ws : List Nat) : Prop where
  perm : ws.Perm vs
  ordered : ws.Pairwise (m.describe · ≤ m.describe ·)
  stable : ∀ s, ws.filter (m.describe · == s) = vs.filter (m.describe · == s)

/-- Inserting a vertex keeps the order. -/
theorem pairwise_insertByDescription (v : Nat) (h : vs.Pairwise (m.describe · ≤ m.describe ·)) :
    (m.insertByDescription v vs).Pairwise (m.describe · ≤ m.describe ·) := by
  induction vs with
  | nil => exact List.pairwise_singleton _ v
  | cons w rest ih =>
    obtain ⟨hfirst, hrest⟩ := List.pairwise_cons.mp h
    rw [insertByDescription]
    split
    · next hvw =>
      rw [List.pairwise_cons, List.forall_mem_cons]
      exact ⟨⟨hvw, fun u hu => String.le_trans hvw (hfirst u hu)⟩, h⟩
    · next hvw =>
      rw [List.pairwise_cons]
      refine ⟨fun u hu => ?_, ih hrest⟩
      rcases List.mem_cons.mp ((m.insertByDescription_perm v rest).mem_iff.mp hu) with rfl | hu
      · exact (String.le_total _ _).resolve_left hvw
      · exact hfirst u hu

/-- A vertex is inserted in front of those with its description. -/
theorem filter_insertByDescription (m : Machine) (v : Nat) (vs : List Nat) (s : String) :
    (m.insertByDescription v vs).filter (m.describe · == s) =
      (v :: vs).filter (m.describe · == s) := by
  induction vs with
  | nil => rfl
  | cons w rest ih =>
    rw [insertByDescription]
    split
    · rfl
    · next hvw =>
      -- the vertex goes behind `w`, so the two have different descriptions and one of them is left
      -- out
      have hne : ¬ (m.describe v = s ∧ m.describe w = s) :=
        fun h => hvw (h.1.trans h.2.symm ▸ String.le_refl _)
      rw [List.filter_cons, ih]
      simp only [List.filter_cons, beq_iff_eq]
      split <;> split <;> simp_all

/-- Sorting by description is stable. -/
theorem sortedBy_sortByDescription (m : Machine) (vs : List Nat) :
    m.SortedBy vs (m.sortByDescription vs) where
  perm := m.sortByDescription_perm vs
  ordered := by
    induction vs with
    | nil => exact .nil
    | cons v rest ih => exact pairwise_insertByDescription v ih
  stable s := by
    induction vs with
    | nil => rfl
    | cons v rest ih =>
      change (m.insertByDescription v (m.sortByDescription rest)).filter _ = _
      rw [filter_insertByDescription, List.filter_cons, ih, List.filter_cons]

/-- Lists with the same vertices of each description have the same vertices. -/
theorem mem_iff_of_filter_eq
    (h : ∀ s, ws.filter (m.describe · == s) = ws'.filter (m.describe · == s)) :
    v ∈ ws ↔ v ∈ ws' := by
  have hiff := congrArg (v ∈ ·) (h (m.describe v))
  simpa [List.mem_filter] using hiff

/-- Lists in the order of descriptions are the same if they have the same vertices of
each description. -/
theorem eq_of_filter_eq (h : ws.Pairwise (m.describe · ≤ m.describe ·))
    (h' : ws'.Pairwise (m.describe · ≤ m.describe ·))
    (hfilter : ∀ s, ws.filter (m.describe · == s) = ws'.filter (m.describe · == s)) : ws = ws' := by
  induction ws generalizing ws' with
  | nil =>
    cases ws' with
    | nil => rfl
    | cons v' rest' =>
      exact absurd ((mem_iff_of_filter_eq hfilter).mpr List.mem_cons_self) List.not_mem_nil
  | cons v rest ih =>
    cases ws' with
    | nil => exact absurd ((mem_iff_of_filter_eq hfilter).mp List.mem_cons_self) List.not_mem_nil
    | cons v' rest' =>
      rw [List.pairwise_cons] at h h'
      -- each first vertex has the least description of all
      have hle {x y : Nat} {xs : List Nat} (hx : ∀ z ∈ xs, m.describe x ≤ m.describe z)
        (hy : y ∈ x :: xs) :
          m.describe x ≤ m.describe y := by
        rcases List.mem_cons.mp hy with rfl | hy
        · exact String.le_refl _
        · exact hx y hy
      have hdesc : m.describe v = m.describe v' :=
        String.le_antisymm (hle h.1 ((mem_iff_of_filter_eq hfilter).mpr List.mem_cons_self))
          (hle h'.1 ((mem_iff_of_filter_eq hfilter).mp List.mem_cons_self))
      have hfirst := hfilter (m.describe v)
      rw [List.filter_cons_of_pos (by simp), List.filter_cons_of_pos (by simp [hdesc])] at hfirst
      obtain ⟨rfl, -⟩ := List.cons.inj hfirst
      have hrest (s : String) : rest.filter (m.describe · == s) =
          rest'.filter (m.describe · == s) := by
        have hs := hfilter s
        rw [List.filter_cons, List.filter_cons] at hs
        split at hs
        · exact (List.cons.inj hs).2
        · exact hs
      rw [ih h.2 h'.2 hrest]

/-- There is one way to sort by description. -/
theorem SortedBy.eq (h : m.SortedBy vs ws) : ws = m.sortByDescription vs := by
  have hsorted := m.sortedBy_sortByDescription vs
  exact eq_of_filter_eq h.ordered hsorted.ordered fun s =>
    (h.stable s).trans (hsorted.stable s).symm

/-! ## The walk -/

/-- What the walk lists for a vertex: nothing for a pseudo-state; for a state, the state itself and
then what is listed for each of its children in the order of their descriptions. -/
inductive Lists (m : Machine) : Nat → List Nat → Prop
  | pseudo {v : Nat} (hkind : ¬ (m.kind v).isState) : Lists m v []
  | state {v : Nat} {cs : List Nat} {inner : Nat → List Nat} (hkind : (m.kind v).isState)
      (hsorted : m.SortedBy (m.children v) cs) (hinner : ∀ c ∈ cs, Lists m c (inner c)) :
      Lists m v (v :: cs.flatMap inner)

/-- The walk lists the states inside a vertex, and nothing else. -/
theorem lists_iff {list : List Nat} : m.Lists v list ↔ list = m.statesWithin v := by
  constructor
  · intro h
    induction h with
    | pseudo hkind => rw [statesWithin_of_not_isState hkind]
    | state hkind hsorted hinner ih =>
      rw [statesWithin_of_isState hkind, sortedChildren, ← hsorted.eq]
      exact congrArg _ (List.flatMap_congr ih)
  · rintro rfl
    induction v using descend (m := m) with
    | step v ih =>
      by_cases hv : (m.kind v).isState
      · rw [statesWithin_of_isState hv]
        exact .state hv (m.sortedBy_sortByDescription _) fun c hc => ih c (mem_sortedChildren.mp hc)
      · rw [statesWithin_of_not_isState hv]
        exact .pseudo hv

/-- What is listed for a state starts with the state. -/
theorem self_mem_statesWithin (h : (m.kind v).isState) : v ∈ m.statesWithin v := by
  rw [statesWithin_of_isState h]
  exact List.mem_cons_self

/-- What is listed for a listed state stands together. -/
theorem statesWithin_infix (h : v ∈ m.statesWithin w) : m.statesWithin v <:+: m.statesWithin w := by
  induction w using descend (m := m) with
  | step w ih =>
    by_cases hw : (m.kind w).isState
    · rw [statesWithin_of_isState hw, List.mem_cons, List.mem_flatMap] at h
      rcases h with rfl | ⟨c, hc, hv⟩
      · exact List.infix_rfl
      · obtain ⟨before, after, hcs⟩ := List.append_of_mem hc
        have hinner : m.statesWithin c <:+: m.statesWithin w :=
          ⟨w :: before.flatMap m.statesWithin, after.flatMap m.statesWithin, by
            rw [statesWithin_of_isState hw, hcs]
            simp⟩
        exact (ih c (mem_sortedChildren.mp hc) hv).trans hinner
    · simp [statesWithin_of_not_isState hw] at h

/-- A listed state comes behind the state around it. -/
theorem pair_sublist_statesWithin (h : v ∈ m.statesWithin w) (hne : v ≠ w)
    (hp : m.parent v = some p) :
    [p, v].Sublist (m.statesWithin w) := by
  induction w using descend (m := m) with
  | step w ih =>
    by_cases hw : (m.kind w).isState
    · rw [statesWithin_of_isState hw, List.mem_cons, List.mem_flatMap] at h
      obtain ⟨c, hc, hv⟩ := h.resolve_left hne
      have hparent := mem_sortedChildren.mp hc
      rw [statesWithin_of_isState hw]
      by_cases hvc : v = c
      · obtain rfl : w = p := Option.some.inj (hparent.symm.trans (hvc ▸ hp))
        refine List.Sublist.cons_cons w (List.singleton_sublist.mpr ?_)
        exact List.mem_flatMap.mpr ⟨c, hc, hv⟩
      · have hinner : (m.statesWithin c).Sublist ((m.sortedChildren w).flatMap m.statesWithin) :=
          List.sublist_flatten_of_mem (List.mem_map_of_mem hc)
        exact ((ih c hparent hv hvc).trans hinner).cons w
    · simp [statesWithin_of_not_isState hw] at h

/-- The state around a listed state is listed, and in front of it. -/
theorem pair_sublist_states (h : v ∈ m.states) (hp : m.parent v = some p) :
    [p, v].Sublist m.states := by
  have hne : v ≠ root := by
    rintro rfl
    simp [parent_root] at hp
  rw [states_eq] at h ⊢
  exact pair_sublist_statesWithin h hne hp

/-- What is listed for a listed state are the listed states inside it. -/
theorem mem_statesWithin_iff (hv : v ∈ m.states) : w ∈ m.statesWithin v ↔
    w ∈ m.states ∧ m.isWithin v w := by
  rw [isWithin_iff]
  constructor
  · intro hw
    have hinfix := statesWithin_infix (m.states_eq ▸ hv)
    exact ⟨m.states_eq ▸ hinfix.mem hw, mem_ancestorsAndSelf_of_mem_statesWithin hw⟩
  · rintro ⟨hw, hmem⟩
    induction w using climb (m := m) with
    | step w ih =>
      by_cases hne : w = v
      · rw [hne]
        exact self_mem_statesWithin (isState_of_mem_states hv)
      · obtain ⟨p, hp, hvp⟩ := exists_parent_of_mem hmem hne
        have hlisted : p ∈ m.states := (pair_sublist_states hw hp).subset List.mem_cons_self
        exact mem_statesWithin_of_parent (ih p hp hlisted hvp) hp (isState_of_mem_states hw)

/-- The list of states of a tree is the one that a walk lists which goes from a state to its
children in the order of their descriptions and passes by pseudo-states. No state is in it twice,
each state is behind the one around it, and the states inside a listed one stand together, with that
one in front. If the machine is valid, all its states are listed. -/
theorem states_are_sorted_preorder (h : m.IsTree) :
    (∀ list, m.Lists root list ↔ list = m.states) ∧ m.states.Nodup ∧
      (∀ v ∈ m.states, ∀ p, m.parent v = some p → [p, v].Sublist m.states) ∧
      (∀ v ∈ m.states, ∃ before inner after, m.states = before ++ (v :: inner) ++ after ∧
        ∀ w, w ∈ v :: inner ↔ w ∈ m.states ∧ m.isWithin v w) ∧
      (m.problems = [] → ∀ v < m.size, (m.kind v).isState → v ∈ m.states) := by
  refine ⟨fun list => ?_, m.nodup_states, fun v hv p => pair_sublist_states hv, fun v hv => ?_,
    fun hvalid v hlt hstate => ?_⟩
  · rw [lists_iff, states_eq]
  · obtain ⟨before, after, hblock⟩ := statesWithin_infix (m.states_eq ▸ hv)
    have hfront := statesWithin_of_isState (isState_of_mem_states hv)
    refine ⟨before, (m.sortedChildren v).flatMap m.statesWithin, after, ?_, fun w => ?_⟩
    · rw [states_eq, ← hblock, hfront]
    · rw [← hfront, mem_statesWithin_iff hv]
  · exact (mem_states h hvalid).mpr ⟨hlt, hstate⟩

/-- A cabinet with two drawers of the same name, and something that got lost in a choice. -/
def cabinet : Machine :=
  (new "Cabinet").addVertex root (.state "Shelf")
    |>.addVertex root (.state "Drawer")
    |>.addVertex root (.point .choice "side")
    |>.addVertex 3 (.state "Lost")
    |>.addVertex root (.state "Drawer")
    |>.addVertex 2 (.state "Box")
    |>.addVertex 2 .initial
    |>.addVertex 5 .final

/-- The drawers of the cabinet are listed before its shelf, each with what is inside it, and the
first one first. What got lost is not listed. All states of the lamp are. -/
theorem cabinet_states_are_sorted_preorder :
    cabinet.IsTree ∧ cabinet.Lists root [root, 2, 6, 5, 8, 1] ∧ [5, 8].Sublist cabinet.states ∧
      lamp.problems = [] ∧ ∀ v < lamp.size, (lamp.kind v).isState → v ∈ lamp.states := by
  have hm : cabinet.Assembled :=
    (Assembled.new "Cabinet").addVertex (by decide) (by simp)
      |>.addVertex (by decide) (by simp)
      |>.addVertex (by decide) (by simp)
      |>.addVertex (by decide) (by simp)
      |>.addVertex (by decide) (by simp)
      |>.addVertex (by decide) (by simp)
      |>.addVertex (by decide) (by simp)
      |>.addVertex (by decide) (by simp)
  have hstates : cabinet.states = [root, 2, 6, 5, 8, 1] := by decide +kernel
  have hvalid : lamp.problems = [] := by decide +kernel
  obtain ⟨hlists, -, hparent, -, -⟩ := states_are_sorted_preorder hm.isTree
  obtain ⟨-, -, -, -, hall⟩ := states_are_sorted_preorder lamp_assembled.isTree
  refine ⟨hm.isTree, (hlists _).mpr hstates.symm, hparent 8 (by simp [hstates]) 5 (by decide),
    hvalid, hall hvalid⟩

end Statechart.Machine
