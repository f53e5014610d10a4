import Mathlib.Data.List.Nodup
import Mathlib.Data.List.Perm.Subperm
import Statechart.Proofs.Listing
import Statechart.Proofs.Routines

/-!
# Compiling pseudo-states in place ends

Transitions of pseudo-states may lead in a circle. Compiling one in place after the other still
ends, whatever the machine: a pseudo-state that is compiled in place is reached from a single place,
and a circle that is entered from anywhere has a pseudo-state that is reached from two. So no
pseudo-state is met twice on the way, and there are more levels than pseudo-states.
-/

namespace Statechart

namespace Machine

variable {m : Machine} {b b' : Behavior} {bs : List Behavior} {p q r : Nat} {seen : List Nat}

/-- The places counted for a behavior are among those of a list that holds it. -/
theorem le_sites_of_mem (f : Behavior → Nat) (hb : b ∈ bs) :
    f b ≤ bs.foldr (fun b count => f b + count) 0 := by
  induction bs with
  | nil => simp at hb
  | cons x rest ih =>
    rw [List.foldr_cons]
    rcases List.mem_cons.mp hb with rfl | hrest
    · exact Nat.le_add_right _ _
    · exact Nat.le_trans (ih hrest) (Nat.le_add_left _ _)

/-- The places counted for two behaviors are among those of a list that holds both. -/
theorem add_le_sites_of_mem (f : Behavior → Nat) (hb : b ∈ bs) (hb' : b' ∈ bs) (hne : b ≠ b') :
    f b + f b' ≤ bs.foldr (fun b count => f b + count) 0 := by
  induction bs with
  | nil => simp at hb
  | cons x rest ih =>
    rw [List.foldr_cons]
    rcases List.mem_cons.mp hb with rfl | hrest
    · have hrest' : b' ∈ rest := (List.mem_cons.mp hb').resolve_left fun h => hne h.symm
      exact Nat.add_le_add_left (le_sites_of_mem f hrest') _
    · rcases List.mem_cons.mp hb' with rfl | hrest'
      · rw [Nat.add_comm]
        exact Nat.add_le_add_left (le_sites_of_mem f hrest) _
      · exact Nat.le_trans (ih hrest hrest') (Nat.le_add_left _ _)

/-- A transition of `p` goes on with `q`, which is compiled in place. -/
structure Leads (m : Machine) (p q : Nat) : Prop where
  pseudo : (m.kind p).isPseudo
  site : ∃ b ∈ m.behaviors, b.owner = p ∧ b.target.bind m.completion = some q
  inPlace : m.plan.isShared q = false

/-- Compiling comes to `p` from elsewhere than a pseudo-state: to write its own function, or, if
it is compiled in place, from the start of the machine or from a behavior of a listed state that
some trigger runs. -/
inductive Entered (m : Machine) : Nat → Prop
  | shared {p : Nat} (h : p ∈ m.states.flatMap (m.plan.sharedIn m)) : Entered m p
  | start {p : Nat} (h : m.initialOf root = some p) (hplace : m.plan.isShared p = false) :
      Entered m p
  | behavior {p : Nat} {b : Behavior} (hb : b ∈ m.behaviors) (hstate : b.owner ∈ m.states)
      (htriggers : b.triggers ≠ []) (hp : b.target.bind m.completion = some p)
      (hplace : m.plan.isShared p = false) : Entered m p

/-- What is listed along with the states is a shared pseudo-state. -/
theorem isShared_of_mem {plan : Plan} (h : p ∈ m.states.flatMap (plan.sharedIn m)) :
    (m.kind p).isPseudo ∧ plan.isShared p := by
  obtain ⟨v, -, hp⟩ := List.mem_flatMap.mp h
  exact (mem_sharedIn.mp hp).2

/-- What a transition goes on with is a pseudo-state. -/
theorem Leads.target_isPseudo (h : m.Leads p q) : (m.kind q).isPseudo := by
  obtain ⟨b, -, -, hq⟩ := h.site
  obtain ⟨t, -, ht⟩ := Option.bind_eq_some_iff.mp hq
  exact isPseudo_of_completion ht

/-- A pseudo-state that is compiled in place is reached from one place only. -/
theorem Leads.callSites_le (h : m.Leads p q) : m.callSites q ≤ 1 := by
  have hshared := h.inPlace
  rw [isShared_plan (lt_size_of_isPseudo h.target_isPseudo), decide_eq_false_iff_not] at hshared
  exact Nat.le_of_not_lt hshared

/-- A transition of a pseudo-state is one place. -/
theorem sitesFrom_of_isPseudo (hb : (m.kind b.owner).isPseudo)
    (hq : b.target.bind m.completion = some q) :
    m.sitesFrom q b = 1 := by
  simp [sitesFrom, renderCount, hb, hq]

/-- A pseudo-state that is compiled in place is led to by one pseudo-state only. -/
theorem Leads.unique (h : m.Leads p q) (h' : m.Leads r q) : p = r := by
  by_contra hne
  obtain ⟨b, hb, rfl, hq⟩ := h.site
  obtain ⟨b', hb', rfl, hq'⟩ := h'.site
  have hsites := add_le_sites_of_mem (m.sitesFrom q) hb hb' fun heq =>
    hne (congrArg Behavior.owner heq)
  rw [sitesFrom_of_isPseudo h.pseudo hq, sitesFrom_of_isPseudo h'.pseudo hq'] at hsites
  have hle := h.callSites_le
  rw [callSites] at hle
  omega

/-- What a pseudo-state leads to in place is not entered from elsewhere. -/
theorem Leads.not_entered (h : m.Leads p q) : ¬ m.Entered q := by
  obtain ⟨b, hb, rfl, hq⟩ := h.site
  have hone := sitesFrom_of_isPseudo h.pseudo hq
  have hle := h.callSites_le
  rw [callSites] at hle
  intro hentered
  cases hentered with
  | shared hshared => cases h.inPlace.symm.trans (isShared_of_mem hshared).2
  | start hstart =>
    have hsites := le_sites_of_mem (m.sitesFrom q) hb
    simp only [hstart, beq_self_eq_true, if_true] at hle
    omega
  | @behavior b' hb' hlisted htriggers hq' =>
    have hpseudo := h.pseudo
    have hstate := isState_of_mem_states hlisted
    have hne : b ≠ b' := by
      rintro rfl
      simp [Kind.isPseudo, hstate] at hpseudo
    have hsites := add_le_sites_of_mem (m.sitesFrom q) hb hb' hne
    have hcount : m.sitesFrom q b' = b'.triggers.length := by
      simp [sitesFrom, renderCount, hq', Kind.isPseudo, hstate]
    have hpos := List.length_pos_of_ne_nil htriggers
    omega

/-- Compiling in place has come to `p` after `seen`, the last one first. -/
inductive Visits (m : Machine) : Nat → List Nat → Prop
  | entered {p : Nat} (hp : (m.kind p).isPseudo) (h : m.Entered p) : Visits m p []
  | next {p q : Nat} {seen : List Nat} (h : Visits m p seen) (hq : m.Leads p q) :
      Visits m q (p :: seen)

namespace Visits

/-- Compiling comes to every shared pseudo-state that is listed along with the states. -/
theorem of_mem (h : p ∈ m.states.flatMap (m.plan.sharedIn m)) : m.Visits p [] :=
  .entered (isShared_of_mem h).1 (.shared h)

/-- Only pseudo-states are met. -/
theorem isPseudo (h : m.Visits p seen) : (m.kind p).isPseudo := by
  cases h with
  | entered hp => exact hp
  | next _ hlead => exact hlead.target_isPseudo

/-- Whatever was met was entered from elsewhere or led to by what was met before it. -/
theorem reached (h : m.Visits p seen) (hq : q ∈ p :: seen) :
    m.Entered q ∨ ∃ r ∈ seen, m.Leads r q := by
  induction h with
  | entered hp h =>
    rw [List.mem_singleton.mp hq]
    exact .inl h
  | @next p q' seen h hlead ih =>
    rcases List.mem_cons.mp hq with rfl | hmem
    · exact .inr ⟨p, List.mem_cons_self, hlead⟩
    · rcases ih hmem with hentered | ⟨r, hr, hrq⟩
      · exact .inl hentered
      · exact .inr ⟨r, List.mem_cons_of_mem _ hr, hrq⟩

/-- Nothing is met twice. -/
theorem nodup (h : m.Visits p seen) : (p :: seen).Nodup := by
  induction h with
  | entered => exact List.nodup_singleton _
  | next h hlead ih =>
    refine List.nodup_cons.mpr ⟨fun hmem => ?_, ih⟩
    rcases h.reached hmem with hentered | ⟨r, hr, hrq⟩
    · exact hlead.not_entered hentered
    · obtain rfl := hlead.unique hrq
      exact (List.nodup_cons.mp ih).1 hr

/-- Only vertices of the machine are met. -/
theorem lt_size (h : m.Visits p seen) : ∀ q ∈ p :: seen, q < m.size := by
  induction h with
  | entered hp => simpa using lt_size_of_isPseudo hp
  | next h hlead ih =>
    exact List.forall_mem_cons.mpr ⟨lt_size_of_isPseudo hlead.target_isPseudo, ih⟩

/-- Fewer pseudo-states were met before than there are vertices. -/
theorem length_lt (h : m.Visits p seen) : seen.length < m.size := by
  have hsub : p :: seen ⊆ List.range m.size := fun q hq => List.mem_range.mpr (h.lt_size q hq)
  have hlength := (List.Nodup.subperm h.nodup hsub).length_le
  rwa [List.length_cons, List.length_range] at hlength

end Visits

end Machine

namespace Compiler

open Draft

variable {c : Compiler} {quiet check : Bool} {b : Behavior} {p s v w : Nat} {trigger : String}
  {invariant : Invariant}

/-- Leaving states may fail, but not for want of levels. -/
theorem fault_leave_ne (path : Path) : (c.leave s path).fault ≠ some (.broken w .inliningEnds) := by
  intro h
  rw [leave] at h
  split at h
  · next invariant hdirect =>
    obtain ⟨rfl, rfl⟩ := Fault.broken.inj (Option.some.inj h)
    rw [Machine.directExit] at hdirect
    split at hdirect
    · split at hdirect
      · cases hdirect
      · split at hdirect <;> cases hdirect
    · cases hdirect
  · cases h
  · split at h <;> cases h

/-- Code that cannot be expanded is reported as such. -/
theorem expand_error {code : String} {fault : Fault} (h : c.expand b code = .error fault) :
    ∃ e, fault = .expansion b e := by
  rw [expand] at h
  cases hcode : c.expander.expand c.ctx code with
  | ok expanded => simp [hcode, Except.mapError] at h
  | error e => exact ⟨e, by simpa [hcode, Except.mapError] using h.symm⟩

/-- A guard that cannot be expanded is reported as such. -/
theorem guardOf_error {fault : Fault} (h : c.guardOf b = .error fault) :
    ∃ e, fault = .expansion b e := by
  rw [guardOf] at h
  split at h
  · cases hcode : c.expand b (Text.trim (b.guard.getD "")) with
    | ok code => simp [hcode, Except.map] at h
    | error other =>
      obtain rfl : other = fault := by simpa [hcode, Except.map] using h
      exact expand_error hcode
  · cases h

/-- Expanding an action may fail, but it breaks no invariant. -/
theorem fault_action_ne : (c.action b).fault ≠ some (.broken w invariant) := by
  intro h
  rw [action] at h
  split at h
  · cases hcode : c.expand b (b.action.getD "") with
    | ok code => simp [hcode] at h
    | error fault =>
      obtain ⟨e, rfl⟩ := expand_error hcode
      simp [hcode] at h
  · cases h

/-- A behavior breaks an invariant only where its body does. -/
theorem fault_behaviorBlock {body : Unit → Draft}
    (h : (c.behaviorBlock b body).fault = some (.broken w invariant)) :
    (body ()).fault = some (.broken w invariant) := by
  rw [behaviorBlock, fault_andThen, fault_emit, Option.none_or] at h
  cases hguard : c.guardOf b with
  | ok guard => rwa [hguard, given_ok, fault_block] at h
  | error fault =>
    obtain ⟨e, rfl⟩ := guardOf_error hguard
    simp [hguard] at h

/-- A behavior without a transition breaks no invariant. -/
theorem fault_reaction_ne : (c.reaction trigger quiet b).fault ≠ some (.broken w invariant) := by
  intro h
  rw [reaction] at h
  cases hflag : (if Trigger.isEvent trigger then c.usesFlag b else .ok false) with
  | ok flagged =>
    rw [hflag, given_ok] at h
    have hbody := fault_behaviorBlock h
    simp only [fault_andThen, fault_emit, Option.none_or, Option.or_none] at hbody
    exact fault_action_ne hbody
  | error fault =>
    have hexpansion : ∃ e, fault = .expansion b e := by
      simp only [usesFlag] at hflag
      split at hflag
      · split at hflag
        · cases hcode : c.expand b (b.action.getD "") with
          | ok code => simp [hcode, Except.map] at hflag
          | error other =>
            obtain rfl : other = fault := by simpa [hcode, Except.map] using hflag
            exact expand_error hcode
        · cases hflag
      · cases hflag
    obtain ⟨e, rfl⟩ := hexpansion
    simp [hflag] at h

/-- A transition breaks an invariant where its path is not found, where it leaves states, or in a
pseudo-state that it goes on with in place. -/
theorem exists_of_fault_transitionWith {inline : Nat → Draft} (hleads : b.hasTransition)
    (h : (c.transitionWith inline quiet check b).fault = some (.broken w invariant)) :
    ∃ t, b.target = some t ∧
      ((c.machine.hasPath b.owner t = false ∧ invariant = .pathEnds) ∨
        (c.leave b.owner (c.machine.path b.owner t)).fault = some (.broken w invariant) ∨
        ∃ p, c.machine.completion t = some p ∧ c.plan.isShared p = false ∧
          (inline p).fault = some (.broken w invariant)) := by
  obtain ⟨t, ht⟩ := Option.isSome_iff_exists.mp hleads
  refine ⟨t, ht, ?_⟩
  simp only [transitionWith, ht] at h
  have hsteps := fault_behaviorBlock h
  simp only [transitionSteps, fault_andThen, fault_emit, Option.none_or,
    Option.or_eq_some_iff] at hsteps
  rcases hsteps with hleave | ⟨-, haction | ⟨-, hconclude⟩⟩
  · rw [departure] at hleave
    split at hleave
    · split at hleave
      · rw [fault_andThen, fault_emit, Option.none_or] at hleave
        exact .inr (.inl hleave)
      · cases hleave
    · next hnone =>
      exact .inl ⟨by simpa using hnone, (Fault.broken.inj (Option.some.inj hleave)).2.symm⟩
  · exact absurd haction fault_action_ne
  · rw [conclude] at hconclude
    split at hconclude
    · cases hconclude
    · next p hp =>
      split at hconclude
      · cases hconclude
      · next hshared => exact .inr (.inr ⟨p, hp, by simpa using hshared, hconclude⟩)

/-- A transition runs out of levels only in a pseudo-state that it goes on with in place. -/
theorem exists_of_inliningEnds {inline : Nat → Draft} (hleads : b.hasTransition)
    (h : (c.transitionWith inline quiet check b).fault = some (.broken w .inliningEnds)) :
    ∃ p, b.target.bind c.machine.completion = some p ∧ c.plan.isShared p = false ∧
      (inline p).fault = some (.broken w .inliningEnds) := by
  obtain ⟨t, ht, ⟨-, hother⟩ | hleave | ⟨p, hp, hshared, hfault⟩⟩ :=
    exists_of_fault_transitionWith hleads h
  · cases hother
  · exact absurd hleave (fault_leave_ne _)
  · exact ⟨p, by rw [ht, Option.bind_some, hp], hshared, hfault⟩

/-- With as many levels left as there are vertices not met yet, compiling in place ends. -/
theorem fault_inline_ne {levels : Nat} {seen : List Nat} (hplan : c.plan = c.machine.plan)
    (h : c.machine.Visits p seen) (hlevels : c.machine.size ≤ levels + seen.length) :
    (c.inline quiet levels p).fault ≠ some (.broken w .inliningEnds) := by
  induction levels generalizing p seen with
  | zero =>
    have := h.length_lt
    omega
  | succ levels ih =>
    intro hfault
    obtain ⟨b, hb, hfault⟩ := exists_of_fault_each (show (each _ _).fault = _ from hfault)
    rw [fault_andThen, fault_emit, Option.or_none] at hfault
    obtain ⟨hb, hleads⟩ := List.mem_filter.mp hb
    obtain ⟨q, hq, hshared, hfault⟩ := exists_of_inliningEnds hleads hfault
    obtain ⟨hmember, howner⟩ := List.mem_filter.mp hb
    have hlead : c.machine.Leads p q :=
      ⟨h.isPseudo, ⟨b, hmember, beq_iff_eq.mp howner, hq⟩, by rw [← hplan, hshared]⟩
    refine ih (h.next hlead) ?_ hfault
    rw [List.length_cons]
    omega

/-- A transition from elsewhere than a pseudo-state is compiled to its end. -/
theorem fault_transition_ne (hplan : c.plan = c.machine.plan) (hleads : b.hasTransition)
    (hentered : ∀ p, b.target.bind c.machine.completion = some p → c.plan.isShared p = false →
      c.machine.Entered p) :
    (c.transition quiet check 0 b).fault ≠ some (.broken w .inliningEnds) := by
  intro h
  obtain ⟨p, hp, hplace, hfault⟩ := exists_of_inliningEnds hleads h
  obtain ⟨t, -, ht⟩ := Option.bind_eq_some_iff.mp hp
  have hvisits := Machine.Visits.entered (Machine.isPseudo_of_completion ht) (hentered p hp hplace)
  exact fault_inline_ne hplan hvisits (Nat.le_refl _) hfault

/-- The behaviors of a state are compiled to their end. -/
theorem fault_behaviorsFor_ne (hplan : c.plan = c.machine.plan) (hv : v ∈ c.machine.states) :
    (c.behaviorsFor v trigger).fault ≠ some (.broken w .inliningEnds) := by
  intro h
  rw [behaviorsFor, fault_andThen, fault_emit, Option.none_or] at h
  obtain ⟨b, hb, h⟩ := exists_of_fault_each h
  rw [fault_andThen, fault_emit, Option.or_none] at h
  split at h
  · next hleads =>
    obtain ⟨hb, hhandles⟩ := List.mem_filter.mp hb
    obtain ⟨hmember, howner⟩ := List.mem_filter.mp hb
    refine fault_transition_ne hplan hleads (fun p hp hplace =>
      .behavior hmember ?_ ?_ hp (hplan ▸ hplace)) h
    · rwa [beq_iff_eq.mp howner]
    · exact List.ne_nil_of_mem (List.contains_iff_mem.mp hhandles)
  · exact fault_reaction_ne h

/-- The start function is compiled to its end. -/
theorem fault_start_ne (hplan : c.plan = c.machine.plan) :
    c.start.fault ≠ some (.broken w .inliningEnds) := by
  intro h
  rw [start, fault_andThen, fault_emit, Option.none_or, startTransition] at h
  split at h
  · cases h
  · next i hi =>
    refine fault_transition_ne hplan rfl (fun p hp hplace => ?_) h
    have hpseudo := Machine.isPseudo_of_isInitial (Machine.initialOf_spec hi).2
    rw [Option.bind_some, Machine.completion, if_pos hpseudo] at hp
    exact .start (hi.trans hp) (hplan ▸ hplace)

/-- Every function is compiled to its end. -/
theorem fault_routineBody_ne {r : Routine} (hplan : c.plan = c.machine.plan) (hr : r ∈ c.routines) :
    (c.routineBody r).fault ≠ some (.broken w .inliningEnds) := by
  intro h
  obtain ⟨v, hv, rfl | rfl | ⟨event, -, rfl⟩ | ⟨p, hp, rfl⟩⟩ := mem_routines.mp hr
  · rw [routineBody, fault_andThen, fault_emit, Option.none_or] at h
    exact fault_behaviorsFor_ne hplan hv h
  · rw [routineBody, fault_andThen, Option.or_eq_some_iff] at h
    rcases h with h | ⟨-, h⟩
    · exact fault_behaviorsFor_ne hplan hv h
    · rw [handBack] at h
      split at h
      · cases h
      · split at h <;> cases h
  · exact fault_behaviorsFor_ne hplan hv h
  · have hvisits := Machine.Visits.of_mem (List.mem_flatMap.mpr ⟨v, hv, hplan ▸ hp⟩)
    exact fault_inline_ne hplan hvisits (Nat.le_succ _) h

end Compiler

/-- Whatever the machine, the configuration and the expander, a file is never refused because
compiling pseudo-states in place does not end. -/
theorem Machine.generateWith_ne_inliningEnds (m : Machine) (config : Config)
    (expander : Snippet.Expander) (ctx : Context) (w : Nat) :
    m.generateWith config expander ctx ≠ .error (.fault (.broken w .inliningEnds)) := by
  intro h
  have hfault : ((m.compiler expander ctx).functions config).fault =
      some (.broken w .inliningEnds) :=
    fault_functions_of_generateWith_error h
  rcases Compiler.exists_of_fault_functions hfault with hstart | ⟨r, hr, hbody⟩
  · exact Compiler.fault_start_ne rfl hstart
  · exact Compiler.fault_routineBody_ne rfl hr hbody

end Statechart
