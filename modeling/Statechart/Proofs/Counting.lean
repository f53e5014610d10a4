import Mathlib.Algebra.BigOperators.Group.List.Basic
import Mathlib.Algebra.GroupWithZero.Nat
import Mathlib.Algebra.Order.BigOperators.Group.List
import Mathlib.Algebra.Order.Group.Nat
import Statechart.Proofs.Listing
import Statechart.Proofs.Rendering
import Statechart.Proofs.Slots
import Statechart.Proofs.Sorting

/-!
# The plan counts what is written

The plan decides which pseudo-states are shared by counting, behavior by behavior, the places from
which each pseudo-state is reached. Compiling does not count: it follows transitions through
pseudo-states in place. The two agree. A pseudo-state in place is reached from one place only, so it
is in place at most once, and its transitions are written at most once; a behavior of a state is
written once for each of its triggers; and no pseudo-state is gone on with more often than the plan
says.

What lies in a state that was put in itself is counted by the plan but not written, since the states
with functions are those that lie in the root.

Behaviors are compared by what they say. Where a machine declares the same behavior several times,
it is written as many times over.
-/

namespace Statechart

open Stmt

namespace Behavior

/-- The triggers of the behavior were added one by one. -/
def TriggersAdded (b : Behavior) : Prop :=
  ∃ names : List String, b.triggers = (names.foldl addTrigger {}).triggers

/-- Triggers that are added to different ones stay different. -/
theorem nodup_addTriggers {b : Behavior} (names : List String) (h : b.triggers.Nodup) :
    (names.foldl addTrigger b).triggers.Nodup := by
  induction names generalizing b with
  | nil => exact h
  | cons name rest ih =>
    refine ih ?_
    rw [addTrigger]
    split
    · exact h
    · next hnew => exact h.append (List.nodup_singleton _) (by simpa using hnew)

/-- Triggers that were added one by one are different. -/
theorem TriggersAdded.nodup {b : Behavior} (h : b.TriggersAdded) : b.triggers.Nodup := by
  obtain ⟨names, hnames⟩ := h
  rw [hnames]
  exact nodup_addTriggers names List.nodup_nil

end Behavior

/-- A constant counted for some elements of a list. -/
theorem sum_map_ite {α : Type} (xs : List α) (q : α → Bool) (k : Nat) :
    (xs.map fun x => if q x then k else 0).sum = xs.countP q * k := by
  induction xs with
  | nil => simp
  | cons x xs ih =>
    rw [List.map_cons, List.sum_cons, ih, List.countP_cons]
    split
    · rw [Nat.add_mul, Nat.one_mul, Nat.add_comm]
    · rw [Nat.zero_add, Nat.add_zero]

/-- How often an element is among those that pass a test. -/
theorem count_filter_eq {α : Type} [BEq α] [LawfulBEq α] (q : α → Bool) (xs : List α) (a : α) :
    (xs.filter q).count a = if q a then xs.count a else 0 := by
  split
  · next ha => exact List.count_filter ha
  · next ha => exact List.count_eq_zero_of_not_mem fun hmem => ha (List.mem_filter.mp hmem).2

/-- How often an element is in a list where each is repeated so many times. -/
theorem count_flatMap_replicate {α : Type} [DecidableEq α] (xs : List α) (k : α → Nat) (a : α) :
    (xs.flatMap fun x => List.replicate (k x) x).count a = xs.count a * k a := by
  have hother (x : α) (hne : x ≠ a) (_ : x ∈ xs) : (List.replicate (k x) x).count a = 0 := by
    rw [List.count_replicate, if_neg (by simpa using hne)]
  rw [List.count_flatMap]
  refine (List.sum_map_eq_nsmul_single a _ hother).trans ?_
  rw [List.count_replicate_self]
  rfl

/-- How often an element comes out of a list is how many elements it comes from. -/
theorem count_filterMap_eq {α : Type} (f : α → Option Nat) (xs : List α) (p : Nat) :
    (xs.filterMap f).count p = xs.countP fun x => f x == some p := by
  rw [List.count_eq_countP, List.countP_filterMap]
  congr 1
  funext x
  cases f x <;> simp

namespace Machine

variable {m : Machine} {b : Behavior} {p v : Nat} {trigger : String} {seen : List Nat}

/-- How often a behavior is among those of a vertex. -/
theorem count_behaviorsOf (m : Machine) (v : Nat) (b : Behavior) :
    (m.behaviorsOf v).count b = if b.owner = v then m.behaviors.count b else 0 := by
  rw [behaviorsOf, count_filter_eq]
  simp

/-- How often a behavior is among those of a vertex on a trigger. -/
theorem count_behaviorsOn (m : Machine) (v : Nat) (trigger : String) (b : Behavior) :
    (m.behaviorsOn v trigger).count b = if b.handles trigger then (m.behaviorsOf v).count b
      else 0 :=
  count_filter_eq _ _ _

/-- The triggers that functions are written for in a state. -/
def triggersOf (m : Machine) (v : Nat) : List String :=
  Trigger.enter :: Trigger.exit :: m.eventsOf v

/-- No trigger is listed twice for a state. -/
theorem nodup_triggersOf (m : Machine) (v : Nat) : (m.triggersOf v).Nodup := by
  have hevents {t : String} (ht : Trigger.isEvent t = false) : t ∉ m.eventsOf v := fun h => by
    cases ht.symm.trans (mem_eventsOf.mp h).1
  rw [triggersOf, List.nodup_cons, List.nodup_cons, List.mem_cons, not_or]
  exact ⟨⟨by decide, hevents rfl⟩, hevents rfl, Text.nodup_sortedSet _⟩

/-- A behavior of a state has a function for each of its triggers and for no other. -/
theorem countP_triggersOf (hb : b ∈ m.behaviors) (hadded : b.TriggersAdded) :
    (m.triggersOf b.owner).countP b.handles = b.triggers.length := by
  have hperm : ((m.triggersOf b.owner).filter b.handles).Perm b.triggers := by
    rw [List.perm_ext_iff_of_nodup ((m.nodup_triggersOf _).filter _) hadded.nodup]
    intro t
    rw [List.mem_filter, Behavior.handles, List.contains_iff_mem, and_iff_right_iff_imp]
    intro ht
    rw [triggersOf, List.mem_cons, List.mem_cons]
    by_cases henter : t = Trigger.enter
    · exact .inl henter
    · by_cases hexit : t = Trigger.exit
      · exact .inr (.inl hexit)
      · refine .inr (.inr (mem_eventsOf.mpr ⟨by simp [Trigger.isEvent, henter, hexit], ?_⟩))
        refine List.any_eq_true.mpr ⟨b, List.mem_filter.mpr ⟨hb, beq_self_eq_true _⟩, ?_⟩
        rwa [Behavior.handles, List.contains_iff_mem]
  rw [List.countP_eq_length_filter, hperm.length_eq]

/-- The behaviors that functions are written for, state by state and trigger by trigger. -/
def scheduled (m : Machine) : List Behavior :=
  m.states.flatMap fun v => (m.triggersOf v).flatMap (m.behaviorsOn v)

/-- How often functions are written for a behavior of a listed state: once for each trigger. -/
theorem count_scheduled (hb : b ∈ m.behaviors) (hadded : b.TriggersAdded) :
    m.scheduled.count b =
      if b.owner ∈ m.states then b.triggers.length * m.behaviors.count b else 0 := by
  have hother (v : Nat) (hne : v ≠ b.owner) (_ : v ∈ m.states) :
      ((m.triggersOf v).flatMap (m.behaviorsOn v)).count b = 0 := by
    rw [List.count_eq_zero]
    intro hmem
    obtain ⟨t, -, ht⟩ := List.mem_flatMap.mp hmem
    exact hne (beq_iff_eq.mp (List.mem_filter.mp (List.mem_filter.mp ht).1).2).symm
  have hown : ((m.triggersOf b.owner).flatMap (m.behaviorsOn b.owner)).count b =
      b.triggers.length * m.behaviors.count b := by
    rw [List.count_flatMap, ← countP_triggersOf hb hadded, ← sum_map_ite]
    refine congrArg List.sum (List.map_congr_left fun t _ => ?_)
    rw [Function.comp_apply, count_behaviorsOn, count_behaviorsOf, if_pos rfl]
  have hsum : m.scheduled.count b = m.states.count b.owner *
      (b.triggers.length * m.behaviors.count b) := by
    rw [scheduled, List.count_flatMap, ← hown]
    exact List.sum_map_eq_nsmul_single b.owner _ hother
  rw [hsum, m.nodup_states.count]
  split
  · rw [Nat.one_mul]
  · rw [Nat.zero_mul]

end Machine

namespace Compiler

variable {c : Compiler}

/-- The functions of a file are written for the scheduled behaviors. -/
theorem scheduledBy_routines (c : Compiler) :
    c.routines.flatMap c.scheduledBy = c.machine.scheduled := by
  rw [routines, List.flatMap_assoc, Machine.scheduled]
  refine List.flatMap_congr fun v _ => ?_
  have hshared : ((c.plan.sharedIn c.machine v).map Routine.shared).flatMap c.scheduledBy = [] := by
    rw [List.flatMap_eq_nil_iff]
    intro r hr
    obtain ⟨p, -, rfl⟩ := List.mem_map.mp hr
    rfl
  rw [routinesOf, List.flatMap_append, hshared, List.append_nil, List.flatMap_cons,
    List.flatMap_cons, List.flatMap_map, Machine.triggersOf, List.flatMap_cons, List.flatMap_cons]
  rfl

/-- The functions of a file are written for the shared pseudo-states that are listed
along with the states. -/
theorem placedBy_routines (c : Compiler) :
    c.routines.flatMap placedBy = c.machine.states.flatMap (c.plan.sharedIn c.machine) := by
  rw [routines, List.flatMap_assoc]
  refine List.flatMap_congr fun v _ => ?_
  have hevents : ((c.machine.eventsOf v).map (Routine.event v)).flatMap placedBy = [] := by
    rw [List.flatMap_eq_nil_iff]
    intro r hr
    obtain ⟨event, -, rfl⟩ := List.mem_map.mp hr
    rfl
  rw [routinesOf, List.flatMap_append, List.flatMap_cons, List.flatMap_cons, hevents,
    List.flatMap_map]
  exact List.flatMap_singleton' _

/-- How often a behavior is among the transitions of pseudo-states. -/
theorem count_outgoing (c : Compiler) (ps : List Nat) (b : Behavior) :
    (ps.flatMap c.outgoing).count b =
      ps.count b.owner * if b.hasTransition then c.machine.behaviors.count b else 0 := by
  have hcount (p : Nat) : (c.outgoing p).count b =
      if b.hasTransition then (c.machine.behaviorsOf p).count b else 0 := count_filter_eq _ _ _
  have hother (p : Nat) (hne : p ≠ b.owner) (_ : p ∈ ps) : (c.outgoing p).count b = 0 := by
    rw [hcount, Machine.count_behaviorsOf, if_neg (Ne.symm hne), ite_self]
  rw [List.count_flatMap]
  refine (List.sum_map_eq_nsmul_single b.owner _ hother).trans ?_
  rw [hcount, Machine.count_behaviorsOf, if_pos rfl]
  rfl

end Compiler

namespace Machine

variable {m : Machine} {b : Behavior} {p v : Nat} {seen placed continued : List Nat}

/-- How often a behavior is written, where the given pseudo-states are in place: that of a state
once for each trigger, if the state is listed. -/
def copies (m : Machine) (placed : List Nat) (b : Behavior) : Nat :=
  if (m.kind b.owner).isPseudo then placed.count b.owner
  else if b.owner ∈ m.states then b.triggers.length else 0

/-- The places from which behaviors lead on into a pseudo-state, where each is
written so many times. -/
def sitesWith (m : Machine) (written : Behavior → Nat) (p : Nat) : Nat :=
  (if m.initialOf root == some p then 1 else 0) +
    (m.behaviors.map fun b => if b.target.bind m.completion == some p then written b else 0).sum

/-- The plan counts the places for the number of times that it takes behaviors to be written. -/
theorem callSites_eq (m : Machine) (p : Nat) : m.callSites p = m.sitesWith m.renderCount p := by
  rw [callSites, sitesWith, List.sum_eq_foldr, List.foldr_map]
  rfl

/-- The plan has the count of every vertex. -/
theorem sitesOf_plan (h : p < m.size) : m.plan.sitesOf p = m.callSites p := by
  simp [plan, Plan.sitesOf, ids, h]

/-- What compiling does to pseudo-states, in numbers: a shared one that is listed is in place once,
in its own function; one that is not shared is in place wherever it is gone on with; and that is
once for each time that a behavior is written which leads there. The paths of all transitions that
are written were found. -/
structure Tally (m : Machine) (placed continued : List Nat) : Prop where
  shared : ∀ p ∈ m.states.flatMap (m.plan.sharedIn m), placed.count p = 1
  unshared : ∀ p, m.plan.isShared p = false → placed.count p = continued.count p
  sites : ∀ p, continued.count p = m.sitesWith (m.copies placed) p
  met : ∀ p ∈ placed, ∃ seen, m.Visits p seen
  paths : ∀ b ∈ m.behaviors, m.copies placed b ≠ 0 → ∀ t, b.target = some t → m.hasPath b.owner t

/-- A behavior that is written, of a pseudo-state or of a listed state on some trigger. -/
def IsWritten (m : Machine) (b : Behavior) : Prop :=
  (m.kind b.owner).isPseudo ∨ b.owner ∈ m.states ∧ b.triggers ≠ []

/-- A behavior that is written and leads to a pseudo-state is a place that the
pseudo-state is reached from. -/
theorem IsWritten.one_le_sitesFrom (h : m.IsWritten b) (hp : b.target.bind m.completion = some p) :
    1 ≤ m.sitesFrom p b := by
  rcases h with hpseudo | ⟨hlisted, htriggers⟩
  · rw [sitesFrom_of_isPseudo hpseudo hp]
  · have hcount : m.sitesFrom p b = b.triggers.length := by
      simp [sitesFrom, renderCount, hp, Kind.isPseudo, isState_of_mem_states hlisted]
    rw [hcount]
    exact List.length_pos_of_ne_nil htriggers

/-- Compiling comes to a pseudo-state that is not shared from the start or from a
behavior that is written. -/
theorem Visits.exists_site (h : m.Visits p seen) (hshared : m.plan.isShared p = false) :
    m.initialOf root = some p ∨
      ∃ b ∈ m.behaviors, m.IsWritten b ∧ b.target.bind m.completion = some p := by
  cases h with
  | entered hp hentered =>
    cases hentered with
    | shared h => cases hshared.symm.trans (isShared_of_mem h).2
    | start hstart => exact .inl hstart
    | behavior hb hlisted htriggers hp => exact .inr ⟨_, hb, .inr ⟨hlisted, htriggers⟩, hp⟩
  | next _ hlead =>
    obtain ⟨b, hb, rfl, hq⟩ := hlead.site
    exact .inr ⟨b, hb, .inl hlead.pseudo, hq⟩

/-- A pseudo-state that compiling comes to, and that is not shared, is reached from
exactly one place. -/
theorem Visits.callSites_eq_one (h : m.Visits p seen) (hshared : m.plan.isShared p = false) :
    m.callSites p = 1 := by
  have hle : m.callSites p ≤ 1 := by
    rw [isShared_plan (lt_size_of_isPseudo h.isPseudo), decide_eq_false_iff_not] at hshared
    exact Nat.le_of_not_lt hshared
  refine Nat.le_antisymm hle ?_
  rw [callSites]
  rcases h.exists_site hshared with hstart | ⟨b, hb, hwritten, hnext⟩
  · rw [hstart, beq_self_eq_true, if_pos rfl]
    exact Nat.le_add_right _ _
  · have hsites := le_sites_of_mem (m.sitesFrom p) hb
    have hone := hwritten.one_le_sitesFrom hnext
    omega

/-- A behavior that leads to a pseudo-state in place, but whose state has no functions, has no
trigger: the plan counts it, and the pseudo-state is reached from one place only. -/
theorem Visits.triggers_eq_nil (h : m.Visits p seen) (hshared : m.plan.isShared p = false)
    (hb : b ∈ m.behaviors) (hnext : b.target.bind m.completion = some p)
    (hstate : (m.kind b.owner).isState) (hunlisted : b.owner ∉ m.states) : b.triggers = [] := by
  have hcount : m.sitesFrom p b = b.triggers.length := by
    simp [sitesFrom, renderCount, hnext, Kind.isPseudo, hstate]
  have hone := h.callSites_eq_one hshared
  rw [callSites] at hone
  rw [← List.length_eq_zero_iff]
  rcases h.exists_site hshared with hstart | ⟨b', hb', hwritten, hnext'⟩
  · have hsites := le_sites_of_mem (m.sitesFrom p) hb
    simp only [hstart, beq_self_eq_true, if_true] at hone
    omega
  · have hne : b' ≠ b := by
      rintro rfl
      rcases hwritten with hpseudo | ⟨hlisted, -⟩
      · simp [Kind.isPseudo, hstate] at hpseudo
      · exact hunlisted hlisted
    have hsites := add_le_sites_of_mem (m.sitesFrom p) hb' hb hne
    have hpos := hwritten.one_le_sitesFrom hnext'
    omega

namespace Tally

/-- Where the behaviors that lead on into a pseudo-state are written as often as the plan takes them
to be, it is gone on with as often as the plan says. -/
theorem count_continued (h : m.Tally placed continued)
    (hcopies : ∀ b ∈ m.behaviors, b.target.bind m.completion = some p →
      m.copies placed b = m.renderCount b) :
    continued.count p = m.callSites p := by
  rw [h.sites, callSites_eq, sitesWith, sitesWith]
  congr 2
  refine List.map_congr_left fun b hb => ?_
  split
  · next hnext => exact hcopies b hb (beq_iff_eq.mp hnext)
  · rfl

/-- A behavior of a state that leads to a pseudo-state in place is written as often as the plan
takes it to be. -/
theorem copies_of_isState (hvisits : m.Visits p seen) (hshared : m.plan.isShared p = false)
    (hb : b ∈ m.behaviors) (hnext : b.target.bind m.completion = some p)
    (hpseudo : ¬ (m.kind b.owner).isPseudo) : m.copies placed b = m.renderCount b := by
  rw [copies, renderCount, if_neg hpseudo, if_neg hpseudo]
  split
  · rfl
  · next hunlisted =>
    have hstate : (m.kind b.owner).isState := by simpa [Kind.isPseudo] using hpseudo
    rw [hvisits.triggers_eq_nil hshared hb hnext hstate hunlisted]
    rfl

/-- A pseudo-state that compiling comes to is in place exactly once. -/
theorem count_of_visits (h : m.Tally placed continued) (hvisits : m.Visits p seen) :
    placed.count p = 1 := by
  -- The one place that a pseudo-state in place is reached from is, by induction, written once
  -- itself.
  induction hvisits with
  | @entered p hp hentered =>
    have hvisits := Visits.entered hp hentered
    cases hshared : m.plan.isShared p with
    | true =>
      cases hentered with
      | shared hlisted => exact h.shared p hlisted
      | start _ hplace => cases hplace.symm.trans hshared
      | behavior _ _ _ _ hplace => cases hplace.symm.trans hshared
    | false =>
      rw [h.unshared p hshared, h.count_continued, hvisits.callSites_eq_one hshared]
      intro b hb hnext
      by_cases hpseudo : (m.kind b.owner).isPseudo
      · have hlead : m.Leads b.owner p := ⟨hpseudo, ⟨b, hb, rfl, hnext⟩, hshared⟩
        exact absurd hentered hlead.not_entered
      · exact copies_of_isState hvisits hshared hb hnext hpseudo
  | @next r q seen hvisits hlead ih =>
    have hshared := hlead.inPlace
    rw [h.unshared q hshared, h.count_continued, (hvisits.next hlead).callSites_eq_one hshared]
    intro b hb hnext
    by_cases hpseudo : (m.kind b.owner).isPseudo
    · have hlead' : m.Leads b.owner q := ⟨hpseudo, ⟨b, hb, rfl, hnext⟩, hshared⟩
      rw [copies, renderCount, if_pos hpseudo, if_pos hpseudo, ← hlead.unique hlead', ih]
    · exact copies_of_isState (hvisits.next hlead) hshared hb hnext hpseudo

/-- No pseudo-state is in place more than once. -/
theorem count_le_one (h : m.Tally placed continued) (p : Nat) : placed.count p ≤ 1 := by
  by_cases hmem : p ∈ placed
  · obtain ⟨seen, hvisits⟩ := h.met p hmem
    exact Nat.le_of_eq (h.count_of_visits hvisits)
  · rw [List.count_eq_zero_of_not_mem hmem]
    exact Nat.zero_le 1

/-- What a transition that is written in the root goes on with lies in the root. -/
theorem root_mem_of_copies (h : m.Tally placed continued) (hgrown : m.Grown) (hb : b ∈ m.behaviors)
    (hcopies : m.copies placed b ≠ 0) (howner : root ∈ m.ancestorsAndSelf b.owner)
    (hnext : b.target.bind m.completion = some p) : root ∈ m.ancestorsAndSelf p := by
  obtain ⟨t, ht, hp⟩ := Option.bind_eq_some_iff.mp hnext
  have hpath := h.paths b hb hcopies t ht
  exact root_mem_of_completion (hgrown.root_mem_of_hasPath howner (lt_size_of_completion hp) hpath)
    hp

/-- A behavior of a listed state that some trigger runs is written. -/
theorem copies_ne_zero_of_listed (hlisted : b.owner ∈ m.states) (htriggers : b.triggers ≠ []) :
    m.copies placed b ≠ 0 := by
  have hpseudo : ¬ (m.kind b.owner).isPseudo := by
    simp [Kind.isPseudo, isState_of_mem_states hlisted]
  rw [copies, if_neg hpseudo, if_pos hlisted]
  exact List.length_eq_zero_iff.not.mpr htriggers

/-- A behavior of a pseudo-state that compiling comes to is written. -/
theorem copies_ne_zero_of_visits (h : m.Tally placed continued) (hvisits : m.Visits b.owner seen) :
    m.copies placed b ≠ 0 := by
  rw [copies, if_pos hvisits.isPseudo, h.count_of_visits hvisits]
  exact Nat.one_ne_zero

/-- Compiling comes only to what lies in the root. -/
theorem root_mem_of_visits (h : m.Tally placed continued) (hgrown : m.Grown)
    (hvisits : m.Visits p seen) :
    root ∈ m.ancestorsAndSelf p := by
  induction hvisits with
  | entered hp hentered =>
    cases hentered with
    | shared hlisted =>
      obtain ⟨v, hv, hp⟩ := List.mem_flatMap.mp hlisted
      exact root_mem_of_mem_sharedIn hv hp
    | start hstart => exact root_mem_of_initialOf hstart
    | behavior hb hlisted htriggers hnext =>
      exact h.root_mem_of_copies hgrown hb (copies_ne_zero_of_listed hlisted htriggers)
        (root_mem_of_mem_states hlisted) hnext
  | next hvisits hlead ih =>
    obtain ⟨b, hb, rfl, hnext⟩ := hlead.site
    exact h.root_mem_of_copies hgrown hb (h.copies_ne_zero_of_visits hvisits) ih hnext

/-- No pseudo-state is gone on with more often than the plan says. -/
theorem count_continued_le (h : m.Tally placed continued) (p : Nat) :
    continued.count p ≤ m.callSites p := by
  rw [h.sites, callSites_eq, sitesWith, sitesWith]
  refine Nat.add_le_add_left (List.sum_le_sum fun b _ => ?_) _
  split
  · rw [copies, renderCount]
    split
    · exact h.count_le_one b.owner
    · split
      · exact Nat.le_refl _
      · exact Nat.zero_le _
  · exact Nat.le_refl _

end Tally

end Machine

namespace Compiler

variable {c : Compiler} {config : Config} {vars : List AutoVar} {b : Behavior} {i p : Nat}

/-- How often each behavior is written in a file: those of listed states once for each
trigger, those of pseudo-states as often as these are in place, and the transition that starts
the machine once. -/
theorem count_rendered (hvalid : c.machine.problems = [])
    (hadded : ∀ b ∈ c.machine.behaviors, b.TriggersAdded) (hplan : c.plan = c.machine.plan)
    (hinitial : c.machine.initialOf Machine.root = some i)
    (hfault : (c.functions config).fault = none) (b : Behavior) :
    let code := (c.file config vars).code
    (rendered code).count b =
      [startBehavior i].count b + c.machine.behaviors.count b *
        c.machine.copies (inPlace code) b := by
  intro code
  have hbalanced : c.Balanced _ _ (active code) := balanced_file hplan hinitial hfault
  have hinPlace : (active code).filterMap inlined? = inPlace code :=
    filterMap_active inlined?_of_isPassive code
  have hcount := hbalanced.rendered b
  rw [filterMap_active behavior?_of_isPassive, hinPlace, count_outgoing, scheduledBy_routines,
    ← List.singleton_append, List.count_append] at hcount
  rw [rendered, hcount, Machine.copies]
  by_cases hb : b ∈ c.machine.behaviors
  · rw [Machine.count_scheduled hb (hadded b hb)]
    by_cases hpseudo : (c.machine.kind b.owner).isPseudo
    · have hunlisted : b.owner ∉ c.machine.states := fun hmem => by
        simp [Kind.isPseudo, Machine.isState_of_mem_states hmem] at hpseudo
      have hown : b ∈ c.machine.behaviorsOf b.owner := List.mem_filter.mpr ⟨hb, beq_self_eq_true _⟩
      rw [if_neg hunlisted, if_pos hpseudo,
        if_pos ((Machine.pseudo_leads_on hvalid hpseudo).2 b hown), Nat.add_zero, Nat.mul_comm]
    · have hzero : (inPlace code).count b.owner = 0 := List.count_eq_zero_of_not_mem fun hmem => by
        obtain ⟨seen, hvisits⟩ := hbalanced.met _ (hinPlace ▸ hmem)
        exact hpseudo hvisits.isPseudo
      rw [if_neg hpseudo, hzero, Nat.zero_mul, Nat.add_zero, Nat.mul_comm _ (ite ..), ite_mul,
        Nat.zero_mul]
  · have hnone : c.machine.behaviors.count b = 0 := List.count_eq_zero_of_not_mem hb
    have hunscheduled : c.machine.scheduled.count b = 0 :=
      List.count_eq_zero_of_not_mem fun hmem => by
      obtain ⟨v, -, hmem⟩ := List.mem_flatMap.mp hmem
      obtain ⟨t, -, hmem⟩ := List.mem_flatMap.mp hmem
      exact hb (List.mem_filter.mp (List.mem_filter.mp hmem).1).1
    rw [hnone, hunscheduled, ite_self, Nat.mul_zero, Nat.zero_mul]

/-- The transition that starts a valid machine is none of its behaviors: it has no trigger. -/
theorem count_startBehavior (h : c.machine.Grown) (hvalid : c.machine.problems = [])
    (hb : b ∈ c.machine.behaviors) : [startBehavior i].count b = 0 := by
  refine List.count_eq_zero_of_not_mem fun hmem => ?_
  obtain rfl := List.mem_singleton.mp hmem
  exact Machine.triggers_ne_nil hvalid h.rootExists h.root_isState
    (List.mem_filter.mpr ⟨hb, rfl⟩) rfl

/-- The numbers of a file. -/
theorem tally_file (hvalid : c.machine.problems = [])
    (hadded : ∀ b ∈ c.machine.behaviors, b.TriggersAdded) (hplan : c.plan = c.machine.plan)
    (hfault : (c.functions config).fault = none) :
    c.machine.Tally (inPlace (c.file config vars).code) (continued (c.file config vars).code) := by
  obtain ⟨i, hinitial⟩ := Machine.exists_initialOf_root hvalid
  have hbalanced : c.Balanced _ _ (active (c.file config vars).code) :=
    balanced_file hplan hinitial hfault
  have hcount (b : Behavior) : (rendered (c.file config vars).code).count b =
    [startBehavior i].count b +
      c.machine.behaviors.count b * c.machine.copies (inPlace (c.file config vars).code) b :=
    count_rendered hvalid hadded hplan hinitial hfault b
  have hinPlace := hbalanced.inPlace
  have hmet := hbalanced.met
  have hcontinued := hbalanced.continued
  rw [← continued_eq_active, placedBy_routines] at hinPlace
  rw [filterMap_active inlined?_of_isPassive] at hinPlace hmet
  rw [← continued_eq_active, filterMap_active behavior?_of_isPassive] at hcontinued
  refine ⟨fun p hlisted => ?_, fun p hshared => ?_, fun p => ?_, hmet, fun b hb hcopies t ht => ?_⟩
  · have hshared := (Machine.isShared_of_mem hlisted).2
    rw [inPlace, hinPlace, hplan, (Machine.nodup_shared _ _).count, if_pos hlisted, if_pos hshared]
  · have hnot : p ∉ c.machine.states.flatMap (c.plan.sharedIn c.machine) := fun hmem => by
      cases hshared.symm.trans (hplan ▸ (Machine.isShared_of_mem hmem).2)
    rw [inPlace, hinPlace, List.count_eq_zero_of_not_mem hnot, hplan, hshared,
      if_neg Bool.false_ne_true, Nat.zero_add]
  · have hperm :
        (rendered (c.file config vars).code).Perm ([startBehavior i] ++ c.machine.behaviors.flatMap
        fun b => List.replicate (c.machine.copies (inPlace (c.file config vars).code) b) b) := by
      rw [List.perm_iff_count]
      intro b
      rw [hcount, List.count_append, count_flatMap_replicate]
    have hstart : [startBehavior i].countP (fun b => b.target.bind c.machine.completion == some p) =
        if c.machine.initialOf Machine.root == some p then 1 else 0 := by
      rw [List.countP_singleton, next_startBehavior hinitial, hinitial]
    rw [hcontinued, count_filterMap_eq, ← rendered, hperm.countP_eq, List.countP_append, hstart,
      List.countP_flatMap, Machine.sitesWith]
    refine congrArg (_ + List.sum ·) (List.map_congr_left fun b _ => ?_)
    rw [Function.comp_apply, List.countP_replicate]
  · have hpos : 0 < (rendered (c.file config vars).code).count b := by
      rw [hcount]
      exact Nat.add_pos_right _
        (Nat.mul_pos (List.count_pos_iff.mpr hb) (Nat.pos_of_ne_zero hcopies))
    refine hbalanced.paths b ?_ t ht
    rw [filterMap_active behavior?_of_isPassive]
    exact List.count_pos_iff.mp hpos

end Compiler

namespace Machine

variable {m : Machine}

/-- The pseudo-states of the root that are shared, or that are led to from the start of the machine,
from a behavior of a state of the root, or from a pseudo-state that is reached. -/
inductive Reached (m : Machine) : Nat → Prop
  | shared {p : Nat} (hp : (m.kind p).isPseudo) (hroot : m.isWithin root p)
      (h : m.plan.isShared p) : Reached m p
  | start {p : Nat} (h : m.initialOf root = some p) : Reached m p
  | behavior {p : Nat} {b : Behavior} (hb : b ∈ m.behaviors) (hstate : (m.kind b.owner).isState)
      (hroot : m.isWithin root b.owner) (hp : b.target.bind m.completion = some p) : Reached m p
  | next {p : Nat} {b : Behavior} (h : Reached m b.owner) (hb : b ∈ m.behaviors)
      (hp : b.target.bind m.completion = some p) : Reached m p

/-- Compiling comes only to pseudo-states that are reached. -/
theorem reached_of_visits {p : Nat} {seen : List Nat} (h : m.Visits p seen) : m.Reached p := by
  induction h with
  | entered hp hentered =>
    cases hentered with
    | shared hlisted =>
      obtain ⟨v, hv, hmem⟩ := List.mem_flatMap.mp hlisted
      exact .shared hp (isWithin_iff.mpr (root_mem_of_mem_sharedIn hv hmem))
        (mem_sharedIn.mp hmem).2.2
    | start hstart => exact .start hstart
    | behavior hb hlisted _ hnext =>
      exact .behavior hb (isState_of_mem_states hlisted)
        (isWithin_iff.mpr (root_mem_of_mem_states hlisted)) hnext
  | next _ hlead ih =>
    obtain ⟨b, hb, rfl, hnext⟩ := hlead.site
    exact .next ih hb hnext

/-- Compiling comes to every pseudo-state that is reached. -/
theorem Tally.visits_of_reached {placed continued : List Nat} {p : Nat}
    (h : m.Tally placed continued) (hgrown : m.Grown) (hvalid : m.problems = [])
    (hreached : m.Reached p) : ∃ seen, m.Visits p seen := by
  have hpseudo {b : Behavior} {p : Nat} (hp : b.target.bind m.completion = some p) :
      (m.kind p).isPseudo := by
    obtain ⟨t, -, ht⟩ := Option.bind_eq_some_iff.mp hp
    exact isPseudo_of_completion ht
  -- A shared pseudo-state has a function of its own, once it is known to lie in the root.
  have hcome {p : Nat} (hp : (m.kind p).isPseudo) (hroot : root ∈ m.ancestorsAndSelf p)
      (hplace : m.plan.isShared p = false → ∃ seen, m.Visits p seen) : ∃ seen, m.Visits p seen := by
    cases hshared : m.plan.isShared p with
    | true => exact ⟨[], .of_mem ((hgrown.mem_shared hvalid).mpr ⟨hroot, hp, hshared⟩)⟩
    | false => exact hplace hshared
  induction hreached with
  | shared hp hroot hshared =>
    exact ⟨[], .of_mem ((hgrown.mem_shared hvalid).mpr ⟨isWithin_iff.mp hroot, hp, hshared⟩)⟩
  | start hstart =>
    have hp := isPseudo_of_isInitial (initialOf_spec hstart).2
    exact hcome hp (root_mem_of_initialOf hstart) fun hplace =>
      ⟨[], .entered hp (.start hstart hplace)⟩
  | @behavior p b hb hstate hroot hp =>
    have hlisted := (hgrown.mem_states hvalid).mpr ⟨isWithin_iff.mp hroot, hstate⟩
    have htriggers := triggers_ne_nil hvalid (hgrown.ownerExists b hb) hstate
      (List.mem_filter.mpr ⟨hb, beq_self_eq_true _⟩)
    have hrootp := h.root_mem_of_copies hgrown hb (copies_ne_zero_of_listed hlisted htriggers)
      (isWithin_iff.mp hroot) hp
    exact hcome (hpseudo hp) hrootp fun hplace =>
      ⟨[], .entered (hpseudo hp) (.behavior hb hlisted htriggers hp hplace)⟩
  | @next p b _ hb hp ih =>
    obtain ⟨seen, hvisits⟩ := ih
    have hrootp := h.root_mem_of_copies hgrown hb (h.copies_ne_zero_of_visits hvisits)
      (h.root_mem_of_visits hgrown hvisits) hp
    exact hcome (hpseudo hp) hrootp fun hplace =>
      ⟨_, hvisits.next ⟨hvisits.isPseudo, ⟨b, hb, rfl, hp⟩, hplace⟩⟩

/-- In the file of a valid machine no pseudo-state is gone on with more often than the plan counts.
A behavior of a pseudo-state is not written, or as often as it is declared: the latter exactly if
the pseudo-state is reached, and then it lies in the root. A behavior of a state is written once for
each of its triggers if the state lies in the root, and else not at all. -/
theorem rendered_as_planned {name : String} {additions : List Addition} {config : Config}
    {expander : Snippet.Expander} {ctx : Context} {text : String}
    (hgrow : (new name).growAll additions = some m) (hvalid : m.problems = [])
    (hadded : ∀ b ∈ m.behaviors, b.TriggersAdded)
    (htext : m.generateWith config expander ctx = .ok text) (vars : List AutoVar) :
    let code := ((m.compiler expander ctx).file config vars).code
    (∀ p, (m.kind p).isPseudo → (continued code).count p ≤ m.plan.sitesOf p) ∧
      ∀ b ∈ m.behaviors,
        ((m.kind b.owner).isPseudo →
          ((rendered code).count b = 0 ∨ (rendered code).count b = m.behaviors.count b) ∧
          (m.Reached b.owner →
            m.isWithin root b.owner ∧ (rendered code).count b = m.behaviors.count b) ∧
          (¬ m.Reached b.owner → (rendered code).count b = 0)) ∧
        ((m.kind b.owner).isState → (rendered code).count b =
          if m.isWithin root b.owner then b.triggers.length * m.behaviors.count b else 0) := by
  intro code
  have hgrown := (grown_new name).growAll hgrow
  have hfault := fault_functions_of_generateWith htext
  have htally : m.Tally (inPlace code) (continued code) :=
    Compiler.tally_file (c := m.compiler expander ctx) hvalid hadded rfl hfault
  obtain ⟨i, hinitial⟩ := exists_initialOf_root hvalid
  refine ⟨fun p hp => ?_, fun b hb => ?_⟩
  · rw [sitesOf_plan (lt_size_of_isPseudo hp)]
    exact htally.count_continued_le p
  · have hcount : (rendered code).count b =
        [Compiler.startBehavior i].count b + m.behaviors.count b * m.copies (inPlace code) b :=
      Compiler.count_rendered (c := m.compiler expander ctx) hvalid hadded rfl hinitial hfault b
    rw [Compiler.count_startBehavior (c := m.compiler expander ctx) hgrown hvalid hb,
      Nat.zero_add] at hcount
    refine ⟨fun hpseudo => ?_, fun hstate => ?_⟩
    · rw [hcount, copies, if_pos hpseudo]
      refine ⟨?_, fun hreached => ?_, fun hunreached => ?_⟩
      · rcases Nat.le_one_iff_eq_zero_or_eq_one.mp (htally.count_le_one b.owner) with hzero | hone
        · exact .inl (by rw [hzero, Nat.mul_zero])
        · exact .inr (by rw [hone, Nat.mul_one])
      · obtain ⟨seen, hvisits⟩ := htally.visits_of_reached hgrown hvalid hreached
        rw [htally.count_of_visits hvisits, Nat.mul_one]
        exact ⟨isWithin_iff.mpr (htally.root_mem_of_visits hgrown hvisits), rfl⟩
      · have hnot : b.owner ∉ inPlace code := by
          intro hmem
          obtain ⟨seen, hvisits⟩ := htally.met _ hmem
          exact hunreached (reached_of_visits hvisits)
        rw [List.count_eq_zero_of_not_mem hnot, Nat.mul_zero]
    · have hlisted : b.owner ∈ m.states ↔ m.isWithin root b.owner := by
        rw [hgrown.mem_states hvalid, isWithin_iff, and_iff_left hstate]
      rw [hcount, copies, if_neg (by simp [Kind.isPseudo, hstate])]
      simp only [hlisted]
      split
      · exact Nat.mul_comm _ _
      · exact Nat.mul_zero _

/-- The lamp that is also pushed or turned from being bright. -/
def dimmer : Machine := lamp.addBehavior 6 { triggers := ["push", "turn"], target := some 7 }

/-- The choice of the dimmer is gone on with four times at most, and is shared. Both of its
transitions are written once, and the transition that two triggers fire twice. -/
theorem dimmer_rendered_as_planned :
    (∃ text, dimmer.generateWith {} {} {} = .ok text) ∧ dimmer.problems = [] ∧
      dimmer.plan.isShared 7 ∧
      ∀ vars, let code := ((dimmer.compiler {} {}).file {} vars).code
        (continued code).count 7 ≤ 4 ∧
        (rendered code).count { owner := 7, guard := some "warm", target := some 6 } = 1 ∧
        (rendered code).count { owner := 7, target := some 3 } = 1 ∧
        (rendered code).count { owner := 6, triggers := ["push", "turn"], target := some 7 } =
          2 := by
  obtain ⟨text, htext⟩ : ∃ text, dimmer.generateWith {} {} {} = .ok text :=
    exists_eq_ok (by decide +kernel)
  have hvalid : dimmer.problems = [] := by decide +kernel
  have hshared : dimmer.plan.isShared 7 := by decide +kernel
  have hadded : ∀ b ∈ dimmer.behaviors,
      b.triggers = (b.triggers.foldl Behavior.addTrigger {}).triggers := by
    decide +kernel
  obtain ⟨name, additions, hgrow⟩ :=
    (lamp_assembled.addBehavior (by decide) : dimmer.Assembled).exists_growAll
  refine ⟨⟨text, htext⟩, hvalid, hshared, fun vars => ?_⟩
  obtain ⟨hcontinued, hrendered⟩ := rendered_as_planned hgrow hvalid
    (fun b hb => ⟨b.triggers, hadded b hb⟩) htext vars
  have hreached : dimmer.Reached 7 := .shared (by decide) (by decide +kernel) hshared
  obtain ⟨-, hwarm⟩ := ((hrendered { owner := 7, guard := some "warm", target := some 6 }
    (by decide +kernel)).1 (by decide)).2.1 hreached
  obtain ⟨-, hother⟩ := ((hrendered { owner := 7, target := some 3 }
    (by decide +kernel)).1 (by decide)).2.1 hreached
  have hbright := (hrendered { owner := 6, triggers := ["push", "turn"], target := some 7 }
    (by decide +kernel)).2 (by decide)
  exact ⟨(hcontinued 7 (by decide)).trans (by decide +kernel), hwarm.trans (by decide +kernel),
    hother.trans (by decide +kernel), hbright.trans (by decide +kernel)⟩

/-- The porch has no problems and gives a file, but what its bell does on its one
trigger is not written. -/
theorem porch_bell_not_rendered :
    (∃ additions, (new "Porch").growAll additions = some porch) ∧ porch.problems = [] ∧
      (∃ text, porch.generateWith {} {} {} = .ok text) ∧
      ∃ b ∈ porch.behaviors, (porch.kind b.owner).isState ∧ b.triggers.length = 1 ∧
        (rendered ((porch.compiler {} {}).file {} []).code).count b = 0 := by
  refine ⟨porch_grown, by decide +kernel, exists_eq_ok (by decide +kernel), ?_⟩
  exact ⟨{ owner := 3, triggers := ["push"], action := some "ring();" }, by decide +kernel, rfl,
    rfl, by decide +kernel⟩

end Machine

end Statechart
