import Statechart.Transition.Path

/-!
# Chains of ancestors

Facts about climbing from a vertex towards the root that need no assumption on the machine: every
step leads to a parent, and what lies above a member of a chain lies on the whole chain. The
vertices on a chain before a given member are the ones that a transition leaves or, read backwards,
the ones that it enters.
-/

namespace Statechart.Machine

variable {m : Machine} {a b p v : Nat}

/-- Induction along the parents of a vertex. -/
theorem climb {motive : Nat → Prop} (v : Nat)
    (step : ∀ v, (∀ p, m.parent v = some p → motive p) → motive v) : motive v := by
  induction v using Nat.strongRecOn with
  | ind v ih => exact step v fun p hp => ih p (parent_lt hp)

/-- The chain of a vertex continues with the chain of its parent. -/
theorem ancestorsAndSelf_of_parent (h : m.parent v = some p) :
    m.ancestorsAndSelf v = v :: m.ancestorsAndSelf p := by
  rw [ancestorsAndSelf]
  split
  · next q hq => rw [Option.some.inj (hq.symm.trans h)]
  · next hnone => simp [hnone] at h

/-- The chain of a vertex without a parent ends at once. -/
theorem ancestorsAndSelf_of_top (h : m.parent v = none) : m.ancestorsAndSelf v = [v] := by
  rw [ancestorsAndSelf]
  split
  · next q hq => simp [hq] at h
  · rfl

/-- The proper ancestors of a vertex are the chain of its parent. -/
theorem ancestors_of_parent (h : m.parent v = some p) : m.ancestors v = m.ancestorsAndSelf p := by
  rw [ancestors, ancestorsAndSelf_of_parent h, List.tail_cons]

/-- The root has no parent. -/
theorem parent_root (m : Machine) : m.parent root = none := by
  cases hp : m.parent root with
  | none => rfl
  | some p => exact absurd (parent_lt hp) (Nat.not_lt_zero p)

/-- On the way out of a vertex that was put in its parent, if anywhere, its ancestors are met. -/
theorem outward_eq_ancestors (h : m.holder v = m.parent v) : m.outward v = m.ancestors v := by
  have hself : (m.holder v).filter (· == v) = none := by
    rw [h, Option.filter_eq_none_iff]
    intro p hp
    rw [beq_iff_eq]
    exact Nat.ne_of_lt (parent_lt hp)
  rw [outward, hself, Option.toList_none, List.append_nil]

/-- A vertex stands on its own chain. -/
theorem self_mem_ancestorsAndSelf (m : Machine) (v : Nat) : v ∈ m.ancestorsAndSelf v := by
  rw [ancestorsAndSelf]
  exact List.mem_cons_self

/-- Lying in a vertex is standing below it on one's chain. -/
theorem isWithin_iff : m.isWithin a v ↔ a ∈ m.ancestorsAndSelf v := by
  rw [isWithin, List.contains_iff_mem]

/-- A vertex other than `a` that lies in `a` has a parent that lies in `a`. -/
theorem exists_parent_of_mem (h : a ∈ m.ancestorsAndSelf v) (hne : v ≠ a) :
    ∃ p, m.parent v = some p ∧ a ∈ m.ancestorsAndSelf p := by
  cases hp : m.parent v with
  | none =>
    rw [ancestorsAndSelf_of_top hp, List.mem_singleton] at h
    exact absurd h.symm hne
  | some p =>
    rw [ancestorsAndSelf_of_parent hp] at h
    rcases List.mem_cons.mp h with h | h
    · exact absurd h.symm hne
    · exact ⟨p, rfl, h⟩

/-- A vertex with something else inside it has a child. -/
theorem exists_child_of_mem (h : a ∈ m.ancestorsAndSelf v) (hne : v ≠ a) :
    ∃ c, m.parent c = some a := by
  induction v using climb (m := m) with
  | step v ih =>
    obtain ⟨p, hp, hap⟩ := exists_parent_of_mem h hne
    by_cases hpa : p = a
    · exact ⟨v, hpa ▸ hp⟩
    · exact ih p hp hap hpa

/-- What lies above an ancestor of a vertex lies above the vertex. -/
theorem mem_ancestorsAndSelf_trans (hab : a ∈ m.ancestorsAndSelf b)
    (hbv : b ∈ m.ancestorsAndSelf v) :
    a ∈ m.ancestorsAndSelf v := by
  induction v using climb (m := m) with
  | step v ih =>
    by_cases hv : v = b
    · exact hv ▸ hab
    · obtain ⟨p, hp, hbp⟩ := exists_parent_of_mem hbv hv
      rw [ancestorsAndSelf_of_parent hp]
      exact List.mem_cons_of_mem _ (ih p hp hbp)

/-- What a vertex lies in is declared before it. -/
theorem le_of_mem_ancestorsAndSelf (h : a ∈ m.ancestorsAndSelf v) : a ≤ v := by
  induction v using climb (m := m) with
  | step v ih =>
    by_cases hne : v = a
    · exact Nat.le_of_eq hne.symm
    · obtain ⟨p, hp, hap⟩ := exists_parent_of_mem h hne
      exact Nat.le_trans (ih p hp hap) (Nat.le_of_lt (parent_lt hp))

/-- A vertex lies in its parent. -/
theorem mem_ancestorsAndSelf_of_parent (h : m.parent v = some p) : p ∈ m.ancestorsAndSelf v := by
  rw [ancestorsAndSelf_of_parent h]
  exact List.mem_cons_of_mem _ (self_mem_ancestorsAndSelf m p)

/-- A vertex lies in the root exactly if its parent does. -/
theorem root_mem_iff_of_parent (h : m.parent v = some p) :
    root ∈ m.ancestorsAndSelf v ↔ root ∈ m.ancestorsAndSelf p := by
  have hne : root ≠ v := Nat.ne_of_lt (Nat.zero_lt_of_lt (parent_lt h))
  rw [ancestorsAndSelf_of_parent h, List.mem_cons, or_iff_right hne]

/-- What a vertex of the root lies in lies in the root. -/
theorem root_mem_of_mem (hv : root ∈ m.ancestorsAndSelf v) (ha : a ∈ m.ancestorsAndSelf v) :
    root ∈ m.ancestorsAndSelf a := by
  induction v using climb (m := m) with
  | step v ih =>
    by_cases hne : v = a
    · exact hne ▸ hv
    · obtain ⟨p, hp, hap⟩ := exists_parent_of_mem ha hne
      exact ih p hp ((root_mem_iff_of_parent hp).mp hv) hap

/-- The first vertex on a chain with some property lies in every other one with it on the chain. -/
theorem mem_ancestorsAndSelf_of_find? {holds : Nat → Bool}
    (hfind : (m.ancestorsAndSelf v).find? holds = some b) (ha : a ∈ m.ancestorsAndSelf v)
    (hholds : holds a) : a ∈ m.ancestorsAndSelf b := by
  induction v using climb (m := m) with
  | step v ih =>
    cases hv : holds v with
    | true =>
      rw [ancestorsAndSelf, List.find?_cons_of_pos hv] at hfind
      exact Option.some.inj hfind ▸ ha
    | false =>
      have hne : v ≠ a := by
        rintro rfl
        rw [hv] at hholds
        cases hholds
      obtain ⟨p, hp, hap⟩ := exists_parent_of_mem ha hne
      rw [ancestorsAndSelf_of_parent hp, List.find?_cons_of_neg (by simp [hv])] at hfind
      exact ih p hp hfind hap

/-- Of two vertices that lie in the root, the least common ancestor stands on both chains and lies
in every other vertex on both. -/
theorem leastCommonAncestor_spec (ha : root ∈ m.ancestorsAndSelf a)
    (hb : root ∈ m.ancestorsAndSelf b) :
    m.leastCommonAncestor a b ∈ m.ancestorsAndSelf a ∧
      m.leastCommonAncestor a b ∈ m.ancestorsAndSelf b ∧
      ∀ v ∈ m.ancestorsAndSelf a, v ∈ m.ancestorsAndSelf b →
      v ∈ m.ancestorsAndSelf (m.leastCommonAncestor a b) := by
  have hcommon : ∃ v ∈ m.ancestorsAndSelf a, (m.ancestorsAndSelf b).contains v :=
    ⟨root, ha, List.contains_iff_mem.mpr hb⟩
  obtain ⟨l, hfind⟩ := Option.isSome_iff_exists.mp (List.find?_isSome.mpr hcommon)
  rw [leastCommonAncestor, hfind, Option.getD_some]
  refine ⟨List.mem_of_find?_eq_some hfind, List.contains_iff_mem.mp (List.find?_some hfind), ?_⟩
  intro v hva hvb
  exact mem_ancestorsAndSelf_of_find? hfind hva (List.contains_iff_mem.mpr hvb)

/-- The vertices from `v` upwards that are still below `a`, innermost first. -/
def below (m : Machine) (a v : Nat) : List Nat := (m.ancestorsAndSelf v).takeWhile (· != a)

/-- Nothing of a vertex is below itself. -/
theorem below_self (m : Machine) (a : Nat) : m.below a a = [] := by
  rw [below, ancestorsAndSelf]
  simp

/-- What is below `a` from `v` upwards is `v` and then the same from its parent. -/
theorem below_of_parent (h : m.parent v = some p) (hne : v ≠ a) :
    m.below a v = v :: m.below a p := by
  rw [below, ancestorsAndSelf_of_parent h, List.takeWhile_cons, if_pos (by simpa using hne), below]

/-- The path over a common ancestor consists of what is below it on either side. -/
theorem pathThrough_eq (m : Machine) (source target lca : Nat) :
    m.pathThrough source target lca = ⟨lca, m.below lca source, (m.below lca target).reverse⟩ := rfl

end Statechart.Machine
