import Statechart.Proofs.Leaving
import Statechart.Proofs.Walks

/-!
# The direct exit is exact

Instead of leaving states one after the other, a transition may call one exit function. It does so
only where exactly one state is to be left, and that state lies right in the vertex where leaving
ends.

There is one exception. A state can be put in itself, and an exit point of such a state may lead to
the state. The transition is to leave the state and to enter it again, and since the state lies in
itself, nothing of it is on the path; still its exit function is called. All that is shown here is
shown of every machine that can grow, and the exception is the only one.
-/

namespace Statechart.Machine

variable {m : Machine} {additions : List Addition} {chain : List Nat} {p s t v x : Nat}

/-- Whether the path of a transition can be followed to its end: going outwards from source and
target ends, unless the target is entered again, in which case only its holder is looked for. -/
def PathEnds (m : Machine) (s t : Nat) : Prop :=
  m.isSelfTransition s t ∨ (∃ chain, m.Climbs s chain) ∧ ∃ chain, m.Climbs t chain

/-- One exit function does all the leaving: its state is the only one on the path, leaving ends
right outside of it, and it is the source itself or the state around an exit point. -/
structure LeavesOnly (m : Machine) (s : Nat) (path : Path) (x : Nat) : Prop where
  states : path.exits.filter (fun v => (m.kind v).isState) = [x]
  outside : m.holder x = some path.lca
  source : x = s ∨ (m.kind s).isExitPoint ∧ m.holder s = some x

/-- The search for the path of a transition ends exactly if its path can be followed. -/
theorem Filed.hasPath_iff (h : m.Filed) : m.hasPath s t ↔ m.PathEnds s t := by
  rw [hasPath, Bool.or_eq_true, Bool.and_eq_true, h.isAnchored_iff, h.isAnchored_iff, PathEnds]

/-- A path that ends leads over a vertex that the source lies in; it is the holder of the
target if the target is entered again, and else also the target lies in it. Only for the root
the path is empty. -/
theorem Filed.path_cases (h : m.Filed) (hs : s < m.size) (ht : t < m.size)
    (hends : m.PathEnds s t) :
    (m.isSelfTransition s t ∧ t = root ∧ m.path s t = ⟨root, [], []⟩) ∨
      ∃ l enters, m.path s t = ⟨l, m.below l s, enters⟩ ∧ l ∈ m.ancestorsAndSelf s ∧
        ((m.isSelfTransition s t ∧ m.holder t = some l) ∨
          (m.isSelfTransition s t = false ∧ l ∈ m.ancestorsAndSelf t)) := by
  cases hself : m.isSelfTransition s t with
  | true =>
    have hts : t ∈ m.ancestorsAndSelf s := by
      simp only [isSelfTransition, Bool.or_eq_true, beq_iff_eq, Bool.and_eq_true] at hself
      rcases hself with rfl | ⟨-, hst⟩
      · exact self_mem_ancestorsAndSelf m s
      · exact mem_ancestorsAndSelf_of_parent hst
    rw [path, if_pos hself]
    cases hl : m.holder t with
    | none =>
      obtain rfl := (h.rootOnly t ht).mp hl
      exact .inl ⟨rfl, rfl, rfl⟩
    | some l =>
      refine .inr ⟨l, _, pathThrough_eq m s t l, ?_, .inl ⟨rfl, rfl⟩⟩
      by_cases hlt : l = t
      · exact hlt ▸ hts
      · have hparent := parent_of_holder hl (Nat.lt_of_le_of_ne (h.notLater t l hl) hlt)
        exact mem_ancestorsAndSelf_trans (mem_ancestorsAndSelf_of_parent hparent) hts
  | false =>
    obtain ⟨⟨up, hup⟩, ⟨down, hdown⟩⟩ := hends.resolve_left (by simp [hself])
    obtain ⟨hsource, htarget, -⟩ :=
      leastCommonAncestor_spec (h.root_mem_of_climbs hs hup) (h.root_mem_of_climbs ht hdown)
    exact .inr ⟨_, _, path_of_not_self hself, hsource, .inr ⟨rfl, htarget⟩⟩

/-- The root of a valid machine is a state. -/
theorem root_isState_of_valid (hvalid : m.problems = []) : (m.kind root).isState := by
  obtain ⟨i, hi⟩ := exists_initialOf_root hvalid
  exact isState_of_parent hvalid (initialOf_spec hi).1

/-- Leaving ends in a state that the source is or lies in. -/
theorem Filed.lca_of_path (h : m.Filed) (hvalid : m.problems = []) (hs : s < m.size)
    (ht : t < m.size) (hends : m.PathEnds s t) :
    (m.kind (m.path s t).lca).isState ∧ m.isWithin (m.path s t).lca s := by
  rcases h.path_cases hs ht hends with ⟨hself, rfl, hpath⟩ | ⟨l, enters, hpath, hls, hl⟩
  · rw [hpath]
    refine ⟨root_isState_of_valid hvalid, isWithin_iff.mpr ?_⟩
    simp only [isSelfTransition, Bool.or_eq_true, beq_iff_eq, Bool.and_eq_true] at hself
    rcases hself with rfl | ⟨-, hparent⟩
    · exact self_mem_ancestorsAndSelf m root
    · exact mem_ancestorsAndSelf_of_parent hparent
  · rw [hpath]
    refine ⟨?_, isWithin_iff.mpr hls⟩
    rcases hl with ⟨-, hholder⟩ | ⟨hself, hlt⟩
    · have hle := h.notLater t l hholder
      exact isState_of_holdsChildren
        (holdsChildren_of_holder hvalid (Nat.lt_of_le_of_lt hle ht) hholder)
    · -- source and target differ, so one of them lies in it and is not it
      have hne : s ≠ t := by
        rintro rfl
        simp [isSelfTransition] at hself
      have hinside : ∃ c, m.parent c = some l := by
        by_cases hsl : s = l
        · exact exists_child_of_mem hlt (fun heq => hne (hsl.trans heq.symm))
        · exact exists_child_of_mem hls hsl
      obtain ⟨c, hc⟩ := hinside
      exact isState_of_parent hvalid hc

/-- Where nothing is to be left, the source is a pseudo-state, and it is all that is on
the path outwards. -/
theorem Filed.exits_of_not_exitRequired (h : m.Filed) (hs : s < m.size) (ht : t < m.size)
    (hends : m.PathEnds s t) (hrequired : m.exitRequired s t (m.path s t) = false) :
    (m.kind s).isPseudo ∧ (m.path s t).exits = [s] := by
  rw [exitRequired] at hrequired
  split at hrequired
  · cases hrequired
  · next hexit =>
    simp only [Bool.not_eq_false', Bool.and_eq_true, beq_iff_eq] at hrequired
    obtain ⟨hpseudo, hparent⟩ := hrequired
    refine ⟨hpseudo, ?_⟩
    rcases h.path_cases hs ht hends with ⟨hself, rfl, hpath⟩ | ⟨l, enters, hpath, hls, -⟩
    · exfalso
      rw [hpath] at hparent
      simp only [isSelfTransition, Bool.or_eq_true, beq_iff_eq] at hself
      rcases hself with rfl | hself
      · exact absurd (parent_lt hparent) (Nat.not_lt_zero _)
      · exact hexit (by simpa using hself)
    · rw [hpath] at hparent ⊢
      have hne : s ≠ l := Nat.ne_of_gt (parent_lt hparent)
      rw [below_of_parent hparent hne, below_self]

/-- The exit function of a state without contents does all the leaving, where it is called
directly. -/
theorem Filed.leavesOnly_state (h : m.Filed) (hvalid : m.problems = []) (hs : s < m.size)
    (ht : t < m.size) (hends : m.PathEnds s t) (hexit : (m.kind s).isExitPoint = false)
    (hdirect : m.directExit s (m.path s t) = .ok (true, x)) :
    m.LeavesOnly s (m.path s t) x ∧ m.holder x ≠ some x := by
  simp only [directExit, hexit, Bool.false_eq_true, if_false, Except.ok.injEq, Prod.mk.injEq,
    Bool.and_eq_true, List.isEmpty_iff, decide_eq_true_eq] at hdirect
  obtain ⟨⟨⟨hstate, hleaf⟩, hlen⟩, rfl⟩ := hdirect
  have hholds (c : Nat) : m.holder c ≠ some s := by
    intro hc
    have hmem := mem_contents.mpr hc
    rw [hleaf] at hmem
    cases hmem
  rcases h.path_cases hs ht hends with ⟨hself, rfl, -⟩ | ⟨l, enters, hpath, hls, hl⟩
  · simp only [isSelfTransition, hexit, Bool.false_and, Bool.or_false, beq_iff_eq] at hself
    obtain ⟨i, hi⟩ := exists_initialOf_root hvalid
    exact absurd (hself ▸ holder_of_parent (initialOf_spec hi).1) (hholds i)
  · rw [hpath] at hlen ⊢
    have hne : s ≠ l := by
      rintro rfl
      rcases hl with ⟨-, hholder⟩ | ⟨hself, hst⟩
      · exact hholds t hholder
      · have hts : t ≠ s := by
          rintro rfl
          simp [isSelfTransition] at hself
        obtain ⟨c, hc⟩ := exists_child_of_mem hst hts
        exact hholds c (holder_of_parent hc)
    have hparent := parent_of_below_length hls hne hlen
    refine ⟨⟨?_, holder_of_parent hparent, .inl rfl⟩, hholds s⟩
    rw [below_of_parent hparent hne, below_self]
    simp [hstate]

/-- The exit function of the state around an exit point does all the leaving, where it is called
directly, unless the state was put in itself. -/
theorem Filed.leavesOnly_exitPoint (h : m.Filed) (hs : s < m.size) (ht : t < m.size)
    (hends : m.PathEnds s t) (hexit : (m.kind s).isExitPoint)
    (hrequired : m.exitRequired s t (m.path s t))
    (hdirect : m.directExit s (m.path s t) = .ok (true, x)) :
    m.LeavesOnly s (m.path s t) x ↔ m.holder x ≠ some x := by
  rw [directExit, if_pos hexit] at hdirect
  split at hdirect
  · cases hdirect
  · next hhead =>
    simp only [bne_iff_ne, ne_eq, not_not] at hhead
    cases hp : m.parent s with
    | none => simp [hp] at hdirect
    | some p =>
      simp only [hp, Except.ok.injEq, Prod.mk.injEq, Bool.and_eq_true, decide_eq_true_eq] at hdirect
      obtain ⟨⟨⟨hstate, -⟩, hlen⟩, rfl⟩ := hdirect
      have hpseudo : ¬ (m.kind s).isState := by
        have := isPseudo_of_isExitPoint hexit
        simpa [Kind.isPseudo] using this
      rcases h.path_cases hs ht hends with ⟨-, -, hpath⟩ | ⟨l, enters, hpath, hls, hl⟩
      · rw [hpath] at hhead
        cases hhead
      · rw [hpath] at hhead hlen hrequired ⊢
        have hne : s ≠ l := by
          rintro rfl
          rw [below_self] at hhead
          cases hhead
        have hexits : (⟨l, m.below l s, enters⟩ : Path).exits = s :: m.below l p :=
          below_of_parent hp hne
        by_cases hpl : p = l
        · -- only for the transition to the state around it, which holds itself
          subst hpl
          have hknot : m.holder p = some p := by
            rw [exitRequired] at hrequired
            split at hrequired
            · next hself =>
              simp only [hexit, hp, Bool.true_and, beq_iff_eq, Option.some.injEq] at hself
              subst hself
              rcases hl with ⟨-, hholder⟩ | ⟨hself, -⟩
              · exact hholder
              · simp [isSelfTransition, hexit, hp] at hself
            · simp [isPseudo_of_isExitPoint hexit, hp] at hrequired
          refine iff_of_false ?_ (not_not.mpr hknot)
          intro hleaves
          have hstates := hleaves.states
          rw [hexits, below_self] at hstates
          simp [hpseudo] at hstates
        · obtain ⟨q, hq, hlp⟩ := exists_parent_of_mem hls hne
          obtain rfl : p = q := Option.some.inj (hp.symm.trans hq)
          rw [hexits, List.length_cons, Nat.add_sub_cancel] at hlen
          have hparent := parent_of_below_length hlp hpl hlen
          have hholder := holder_of_parent hparent
          refine iff_of_true ⟨?_, hholder, .inr ⟨hexit, holder_of_parent hp⟩⟩ ?_
          · rw [hexits, below_of_parent hparent hpl, below_self]
            simp [hpseudo, hstate]
          · rw [hholder]
            exact fun heq => hpl (Option.some.inj heq).symm

/-- However a machine grew, if it is valid: where one exit function is called instead of leaving
states one after the other, it does exactly that, unless its state was put in itself. Otherwise
leaving ends in a state that the source is or lies in. Where nothing is to be left, the path leaves
only the source, which is a pseudo-state. -/
theorem directExit_exact_iff {name : String} (hgrow : (new name).growAll additions = some m)
    (hvalid : m.problems = []) (hs : s < m.size) (ht : t < m.size) (hends : m.PathEnds s t) :
    (m.exitRequired s t (m.path s t) →
        (∀ x, m.directExit s (m.path s t) = .ok (true, x) →
          (m.LeavesOnly s (m.path s t) x ↔ m.holder x ≠ some x)) ∧
        ∀ x, m.directExit s (m.path s t) = .ok (false, x) →
          (m.kind (m.path s t).lca).isState ∧ m.isWithin (m.path s t).lca s) ∧
      (m.exitRequired s t (m.path s t) = false → (m.kind s).isPseudo ∧
        (m.path s t).exits = [s]) := by
  have h := (filed_new name).growAll hgrow
  refine ⟨?_, h.exits_of_not_exitRequired hs ht hends⟩
  intro hrequired
  refine ⟨?_, fun x _ => h.lca_of_path hvalid hs ht hends⟩
  intro x hdirect
  cases hexit : (m.kind s).isExitPoint with
  | true => exact h.leavesOnly_exitPoint hs ht hends hexit hrequired hdirect
  | false =>
    obtain ⟨hleaves, hholder⟩ := h.leavesOnly_state hvalid hs ht hends hexit hdirect
    exact iff_of_true hleaves hholder

/-- Calls that put the state `Loop` in itself, with an exit point that leads to `Loop`. The exit
point of the state `Work` leads to `Idle`. -/
def knottedCalls : List Addition :=
  [.vertex root .initial, .vertex root (.state "Idle"), .vertex 3 (.state "Loop"),
    .vertex 3 (.point .exit "out"), .vertex root (.state "Work"), .vertex 5 (.point .exit "done"),
    .behavior 1 { target := some 2 }, .behavior 4 { target := some 3 },
    .behavior 6 { target := some 2 }]

/-- The machine that the knotted calls make. -/
def knotted : Machine :=
  (new "Knotted").addVertex root .initial
    |>.addVertex root (.state "Idle")
    |>.addVertex 3 (.state "Loop")
    |>.addVertex 3 (.point .exit "out")
    |>.addVertex root (.state "Work")
    |>.addVertex 5 (.point .exit "done")
    |>.addBehavior 1 { target := some 2 }
    |>.addBehavior 4 { target := some 3 }
    |>.addBehavior 6 { target := some 2 }

/-- No call that makes the knotted machine fails. -/
theorem growAll_knottedCalls : (new "Knotted").growAll knottedCalls = some knotted := rfl

/-- From the exit point of `Work` to `Idle` the exit function of `Work` is called, and `Work` is
all that is left. -/
theorem knotted_done_exact :
    knotted.problems = [] ∧ knotted.PathEnds 6 2 ∧ knotted.exitRequired 6 2 (knotted.path 6 2) ∧
      knotted.directExit 6 (knotted.path 6 2) = .ok (true, 5) ∧
      knotted.LeavesOnly 6 (knotted.path 6 2) 5 := by
  have hvalid : knotted.problems = [] := by decide +kernel
  have hends : knotted.PathEnds 6 2 :=
    .inr ⟨⟨[6, 5, 0], .up rfl (.up rfl (.top rfl))⟩, ⟨[2, 0], .up rfl (.top rfl)⟩⟩
  have hrequired : knotted.exitRequired 6 2 (knotted.path 6 2) := by decide +kernel
  have hdirect : knotted.directExit 6 (knotted.path 6 2) = .ok (true, 5) := by decide +kernel
  obtain ⟨hexact, -⟩ :=
    directExit_exact_iff growAll_knottedCalls hvalid (by decide) (by decide) hends
  have hleaves := ((hexact hrequired).1 5 hdirect).mpr (by decide)
  exact ⟨hvalid, hends, hrequired, hdirect, hleaves⟩

/-- From the exit point of `Loop` to `Loop` the exit function of `Loop` is called, though no state
is to be left. -/
theorem knotted_out_inexact :
    (new "Knotted").growAll knottedCalls = some knotted ∧ knotted.problems = [] ∧
      knotted.PathEnds 4 3 ∧
      knotted.exitRequired 4 3 (knotted.path 4 3) ∧
      knotted.directExit 4 (knotted.path 4 3) = .ok (true, 3) ∧
      (knotted.path 4 3).exits.filter (fun v => (knotted.kind v).isState) = [] ∧
      ¬ knotted.LeavesOnly 4 (knotted.path 4 3) 3 := by
  have hstates : (knotted.path 4 3).exits.filter (fun v => (knotted.kind v).isState) = [] := by
    decide +kernel
  refine ⟨rfl, by decide +kernel, .inl (by decide +kernel), by decide +kernel, by decide +kernel,
    hstates, ?_⟩
  intro hleaves
  rw [hleaves.states] at hstates
  cases hstates

end Statechart.Machine
