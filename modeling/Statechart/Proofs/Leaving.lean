import Statechart.Proofs.Growth
import Statechart.Proofs.Validity
import Statechart.Transition.Exit

/-!
# Where a transition finds and leaves the machine

A transition of a state finds the machine in that state or in something inside it, and a transition
of a pseudo-state finds it in the pseudo-state's parent. In both cases the least common ancestor of
its path is reached by what the transition does to leave states: nothing, one call of an exit
function, or leaving states one after the other up to that ancestor.

All this is so for transitions that start and end in the root, in any machine that grew. What lies
in a vertex that was put in itself makes no difference to them.
-/

namespace Statechart.Machine

variable {m : Machine} {active p s t v x : Nat}

/-- The states in which a transition from the vertex may find the machine. -/
def MayFind (m : Machine) (source active : Nat) : Prop :=
  if (m.kind source).isPseudo then m.parent source = some active else m.isWithin source active

/-- A transition goes on only from a vertex of the machine. -/
theorem lt_size_of_completion (hp : m.completion t = some p) : t < m.size := by
  rw [completion] at hp
  split at hp
  · next hpseudo => exact lt_size_of_isPseudo hpseudo
  · have hparent := (initialOf_spec hp).1
    exact Nat.lt_trans (parent_lt hparent) (lt_size_of_parent hparent)

/-- The initial pseudo-state of the root lies in the root. -/
theorem root_mem_of_initialOf (h : m.initialOf root = some p) : root ∈ m.ancestorsAndSelf p :=
  (root_mem_iff_of_parent (initialOf_spec h).1).mpr (self_mem_ancestorsAndSelf m root)

/-- What a transition to a vertex of the root goes on with lies in the root. -/
theorem root_mem_of_completion (ht : root ∈ m.ancestorsAndSelf t) (hp : m.completion t = some p) :
    root ∈ m.ancestorsAndSelf p := by
  rw [completion] at hp
  split at hp
  · exact Option.some.inj hp ▸ ht
  · exact (root_mem_iff_of_parent (initialOf_spec hp).1).mpr ht

/-- A path leads over a vertex on both chains, and over the target's parent if the target is entered
again; only when the root is entered again does it stay where it is. -/
theorem path_cases (h : m.Grown) (hs : root ∈ m.ancestorsAndSelf s)
    (ht : root ∈ m.ancestorsAndSelf t) :
    (m.isSelfTransition s t ∧ t = root ∧ m.path s t = ⟨root, [], []⟩) ∨
      ∃ lca, m.path s t = m.pathThrough s t lca ∧ lca ∈ m.ancestorsAndSelf s ∧
        lca ∈ m.ancestorsAndSelf t ∧ (m.isSelfTransition s t → m.parent t = some lca) := by
  rw [path, h.holder_eq_parent ht]
  split
  · next hself =>
    cases hp : m.parent t with
    | none =>
      have hroot : t = root := by
        by_contra hne
        obtain ⟨p, hsome, -⟩ := exists_parent_of_mem ht hne
        simp [hp] at hsome
      exact .inl ⟨hself, hroot, by rw [hroot]⟩
    | some p =>
      have hpt : p ∈ m.ancestorsAndSelf t := by
        rw [ancestorsAndSelf_of_parent hp]
        exact List.mem_cons_of_mem _ (self_mem_ancestorsAndSelf m p)
      have hts : t ∈ m.ancestorsAndSelf s := by
        simp only [isSelfTransition, Bool.or_eq_true, beq_iff_eq, Bool.and_eq_true] at hself
        rcases hself with rfl | ⟨-, hst⟩
        · exact self_mem_ancestorsAndSelf m s
        · rw [ancestorsAndSelf_of_parent hst]
          exact List.mem_cons_of_mem _ (self_mem_ancestorsAndSelf m t)
      exact .inr ⟨p, rfl, mem_ancestorsAndSelf_trans hpt hts, hpt, fun _ => rfl⟩
  · next hself =>
    obtain ⟨hleft, hright, -⟩ := leastCommonAncestor_spec hs ht
    exact .inr ⟨_, rfl, hleft, hright, fun hyes => absurd hyes hself⟩

/-- The target of a path lies in its least common ancestor. -/
theorem path_lca_mem_target (h : m.Grown) (hs : root ∈ m.ancestorsAndSelf s)
    (ht : root ∈ m.ancestorsAndSelf t) :
    (m.path s t).lca ∈ m.ancestorsAndSelf t := by
  rcases path_cases h hs ht with ⟨-, rfl, hpath⟩ | ⟨lca, hpath, -, hmem, -⟩
  · rw [hpath]
    exact self_mem_ancestorsAndSelf m root
  · rw [hpath]
    exact hmem

/-- The source of a path lies in its least common ancestor. -/
theorem path_lca_mem_source (h : m.Grown) (hs : root ∈ m.ancestorsAndSelf s)
    (ht : root ∈ m.ancestorsAndSelf t) :
    (m.path s t).lca ∈ m.ancestorsAndSelf s := by
  rcases path_cases h hs ht with ⟨-, -, hpath⟩ | ⟨lca, hpath, hmem, -, -⟩
  · rw [hpath]
    exact hs
  · rw [hpath]
    exact hmem

/-- The least common ancestor of a path in a valid machine is a state. -/
theorem path_lca_isState (h : m.Grown) (hvalid : m.problems = []) (hs : root ∈ m.ancestorsAndSelf s)
    (ht : root ∈ m.ancestorsAndSelf t) :
    (m.kind (m.path s t).lca).isState := by
  rcases path_cases h hs ht with ⟨-, -, hpath⟩ | ⟨lca, hpath, hmems, hmemt, hself⟩
  · rw [hpath]
    exact h.root_isState
  · -- otherwise it has something inside it: the source, the target, or the target that is
    -- entered again
    have hinside : ∃ v, m.parent v = some lca := by
      by_cases hst : m.isSelfTransition s t
      · exact ⟨t, hself hst⟩
      · have hne : s ≠ lca ∨ t ≠ lca := by
          by_contra hboth
          simp only [not_or, not_not] at hboth
          exact hst (by simp [isSelfTransition, hboth.1, hboth.2])
        rcases hne with hne | hne
        · exact exists_child_of_mem hmems hne
        · exact exists_child_of_mem hmemt hne
    obtain ⟨v, hv⟩ := hinside
    rw [hpath]
    exact isState_of_parent hvalid hv

/-- A path enters what lies between its least common ancestor and its target. -/
theorem path_enters (h : m.Grown) (hs : root ∈ m.ancestorsAndSelf s)
    (ht : root ∈ m.ancestorsAndSelf t) :
    (m.path s t).enters = (m.below (m.path s t).lca t).reverse := by
  rcases path_cases h hs ht with ⟨-, rfl, hpath⟩ | ⟨lca, hpath, -, -, -⟩
  · rw [hpath, below_self]
    rfl
  · rw [hpath, pathThrough_eq]

/-- If a single vertex is below a proper ancestor, the ancestor is its parent. -/
theorem parent_of_below_length (hmem : p ∈ m.ancestorsAndSelf x) (hne : x ≠ p)
    (hlen : (m.below p x).length ≤ 1) : m.parent x = some p := by
  obtain ⟨q, hq, hpq⟩ := exists_parent_of_mem hmem hne
  rw [below_of_parent hq hne, List.length_cons] at hlen
  by_cases hqp : q = p
  · rw [hq, hqp]
  · obtain ⟨q', hq', -⟩ := exists_parent_of_mem hpq hqp
    rw [below_of_parent hq' hqp, List.length_cons] at hlen
    omega

/-- Nothing lies in a vertex without children but the vertex itself. -/
theorem eq_of_isWithin_of_leaf (hleaf : m.children s = []) (h : m.isWithin s v) : v = s := by
  rw [isWithin_iff] at h
  induction v using climb (m := m) with
  | step v ih =>
    by_contra hne
    obtain ⟨p, hp, hmem⟩ := exists_parent_of_mem h hne
    have hv : v ∈ m.children s := mem_children.mpr (by rw [hp, ih p hp hmem])
    simp [hleaf] at hv

/-- Where nothing is left, the machine is in the least common ancestor already. -/
theorem eq_lca_of_not_exitRequired (hfind : m.MayFind s active)
    (h : m.exitRequired s t (m.path s t) = false) : active = (m.path s t).lca := by
  rw [exitRequired] at h
  split at h
  · cases h
  · simp only [Bool.not_eq_false', Bool.and_eq_true, beq_iff_eq] at h
    rw [MayFind, if_pos h.1, h.2] at hfind
    exact (Option.some.inj hfind).symm

/-- Where states are left one after the other, the machine is inside the least common ancestor. -/
theorem lca_isWithin (h : m.Grown) (hs : root ∈ m.ancestorsAndSelf s)
    (ht : root ∈ m.ancestorsAndSelf t) (hfind : m.MayFind s active)
    (hstate : (m.kind (m.path s t).lca).isState) : m.isWithin (m.path s t).lca active := by
  have hmem := path_lca_mem_source h hs ht
  rw [isWithin_iff]
  rw [MayFind] at hfind
  split at hfind
  · next hpseudo =>
    have hne : s ≠ (m.path s t).lca := by
      intro heq
      rw [← heq] at hstate
      simp [Kind.isPseudo, hstate] at hpseudo
    obtain ⟨p, hp, hlca⟩ := exists_parent_of_mem hmem hne
    rw [Option.some.inj (hfind.symm.trans hp)]
    exact hlca
  · exact mem_ancestorsAndSelf_trans hmem (isWithin_iff.mp hfind)

/-- An exit point is a pseudo-state. -/
theorem isPseudo_of_isExitPoint {kind : Kind} (h : kind.isExitPoint) : kind.isPseudo := by
  cases kind <;> first | rfl | cases h

/-- A vertex with a parent is not the root. -/
theorem ne_root_of_parent (h : m.parent v = some p) : v ≠ root := by
  rintro rfl
  simp [parent_root] at h

/-- Where a transition of an exit point is to call one exit function, it is that of the state around
the exit point, in which the machine is, and which lies right in the least common ancestor. -/
theorem directExit_of_exitPoint (h : m.Grown) (hs : root ∈ m.ancestorsAndSelf s)
    (ht : root ∈ m.ancestorsAndSelf t) (hexit : (m.kind s).isExitPoint)
    (hfind : m.parent s = some active) (hrequired : m.exitRequired s t (m.path s t))
    (hdirect : m.directExit s (m.path s t) = .ok (true, x)) :
    active = x ∧ m.parent x = some (m.path s t).lca := by
  simp only [directExit, hexit, if_true, hfind, bne_iff_ne, ne_eq, ite_not] at hdirect
  split at hdirect
  · next hhead =>
    simp only [Except.ok.injEq, Prod.mk.injEq, Bool.and_eq_true, decide_eq_true_eq] at hdirect
    obtain ⟨⟨-, hlen⟩, rfl⟩ := hdirect
    refine ⟨rfl, ?_⟩
    rcases path_cases h hs ht with ⟨-, -, hpath⟩ | ⟨lca, hpath, hmem, -, hself⟩
    · simp [hpath] at hhead
    · rw [hpath] at hhead hlen hrequired ⊢
      rw [pathThrough_eq] at hhead hlen
      have hne : s ≠ lca := by
        rintro rfl
        simp [below_self] at hhead
      have hlca : active ≠ lca := by
        rintro rfl
        rw [exitRequired, hexit, Bool.true_and] at hrequired
        split at hrequired
        · next hparent =>
          have hst := Option.some.inj (hfind.symm.trans (beq_iff_eq.mp hparent))
          have hselft : m.isSelfTransition s t := by
            simp [isSelfTransition, hexit, beq_iff_eq.mp hparent]
          exact absurd (parent_lt (hself hselft)) (by omega)
        · simp [isPseudo_of_isExitPoint hexit, hfind, pathThrough_eq] at hrequired
      obtain ⟨q, hq, hmemq⟩ := exists_parent_of_mem hmem hne
      obtain rfl : active = q := Option.some.inj (hfind.symm.trans hq)
      rw [below_of_parent hfind hne, List.length_cons, Nat.add_sub_cancel] at hlen
      exact parent_of_below_length hmemq hlca hlen
  · cases hdirect

/-- Where a transition of a state is to call one exit function, it is that of the state itself, in
which the machine is, and which lies right in the least common ancestor. -/
theorem directExit_of_state (h : m.Grown) (hvalid : m.problems = [])
    (hs : root ∈ m.ancestorsAndSelf s) (ht : root ∈ m.ancestorsAndSelf t)
    (hexit : (m.kind s).isExitPoint = false) (hfind : m.MayFind s active)
    (hdirect : m.directExit s (m.path s t) = .ok (true, x)) :
    active = x ∧ m.parent x = some (m.path s t).lca := by
  simp only [directExit, h.contents_eq_children hs, hexit, Bool.false_eq_true, if_false,
    Except.ok.injEq, Prod.mk.injEq, Bool.and_eq_true, List.isEmpty_iff,
    decide_eq_true_eq] at hdirect
  obtain ⟨⟨⟨hstate, hleaf⟩, hlen⟩, rfl⟩ := hdirect
  rw [MayFind, if_neg (by simp [Kind.isPseudo, hstate])] at hfind
  refine ⟨eq_of_isWithin_of_leaf hleaf hfind, ?_⟩
  rcases path_cases h hs ht with ⟨hself, rfl, -⟩ | ⟨lca, hpath, hmem, hmemt, hself⟩
  · simp only [isSelfTransition, hexit, Bool.false_and, Bool.or_false, beq_iff_eq] at hself
    exact absurd (hself ▸ hleaf) (children_root_ne_nil hvalid)
  · rw [hpath] at hlen ⊢
    refine parent_of_below_length hmem ?_ hlen
    rintro rfl
    have hts : t = s := eq_of_isWithin_of_leaf hleaf (isWithin_iff.mpr hmemt)
    have hparent := hself (by simp [isSelfTransition, hts])
    exact absurd (parent_lt hparent) (by omega)

/-- The one exit function that a transition calls is that of the state in which the machine is; the
state is not the root, and it lies right in the least common ancestor. -/
theorem directExit_active (h : m.Grown) (hvalid : m.problems = [])
    (hs : root ∈ m.ancestorsAndSelf s) (ht : root ∈ m.ancestorsAndSelf t)
    (hfind : m.MayFind s active) (hrequired : m.exitRequired s t (m.path s t))
    (hdirect : m.directExit s (m.path s t) = .ok (true, x)) :
    active = x ∧ m.parent x = some (m.path s t).lca := by
  cases hexit : (m.kind s).isExitPoint with
  | true =>
    rw [MayFind, if_pos (isPseudo_of_isExitPoint hexit)] at hfind
    exact directExit_of_exitPoint h hs ht hexit hfind hrequired hdirect
  | false => exact directExit_of_state h hvalid hs ht hexit hfind hdirect

end Statechart.Machine
