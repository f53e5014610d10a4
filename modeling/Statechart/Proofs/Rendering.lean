import Statechart.Proofs.ActiveParts
import Statechart.Proofs.Inlining

/-!
# What is written for each behavior

Code is balanced against a list of behaviors and a list of pseudo-states: it writes those behaviors
and all transitions of the pseudo-states in it that are in place; it goes on with a pseudo-state
once for each behavior written that leads there; and in place are the given pseudo-states and those
that are gone on with and not shared. Balance is kept when code is put together, so the file is
balanced against what its functions are written for.
-/

namespace Statechart

namespace Stmt

/-- The behavior that the statement is the block of. -/
def behavior? : Stmt → Option Behavior
  | block (.behavior b _) _ _ => some b
  | _ => none

/-- The pseudo-state that the statement is in place. -/
def inlined? : Stmt → Option Nat
  | inlined p _ => some p
  | _ => none

/-- The pseudo-state that the statement goes on with. -/
def goesOn? : Stmt → Option Nat
  | proceed p | inlined p _ => some p
  | _ => none

/-- The pseudo-states that a behavior goes on with. -/
def goesOnIn : Stmt → List Nat
  | block (.behavior ..) body _ => body.filterMap goesOn?
  | _ => []

/-- The behaviors that are written in code, at any depth. -/
def rendered (code : List Stmt) : List Behavior := (partsAll code).filterMap behavior?

/-- The pseudo-states that are in place in code, at any depth. -/
def inPlace (code : List Stmt) : List Nat := (partsAll code).filterMap inlined?

/-- The pseudo-states that the behaviors written in code go on with, at any depth. -/
def continued (code : List Stmt) : List Nat := (partsAll code).flatMap goesOnIn

/-- Only active parts count. -/
theorem filterMap_active {α : Type} {f : Stmt → Option α}
    (hf : ∀ stmt, stmt.isPassive → f stmt = none) (code : List Stmt) :
    (active code).filterMap f = (partsAll code).filterMap f := by
  rw [active, List.filterMap_filter]
  refine List.filterMap_congr fun stmt _ => ?_
  cases hpassive : stmt.isPassive with
  | true => simp [hf stmt hpassive]
  | false => simp

/-- Passive statements are no behaviors. -/
theorem behavior?_of_isPassive (stmt : Stmt) (h : stmt.isPassive) : behavior? stmt = none := by
  unfold behavior?
  split
  · cases h
  · rfl

/-- Passive statements are no pseudo-states in place. -/
theorem inlined?_of_isPassive (stmt : Stmt) (h : stmt.isPassive) : inlined? stmt = none := by
  unfold inlined?
  split
  · cases h
  · rfl

/-- Only active parts go on with pseudo-states. -/
theorem continued_eq_active (code : List Stmt) :
    continued code = (active code).flatMap goesOnIn := by
  rw [continued, active]
  induction partsAll code with
  | nil => rfl
  | cons stmt rest ih =>
    cases hpassive : stmt.isPassive with
    | true =>
      have hnone : goesOnIn stmt = [] := by
        unfold goesOnIn
        split
        · cases hpassive
        · rfl
      rw [List.flatMap_cons, hnone, List.filter_cons_of_neg (by simp [hpassive]),
        List.nil_append, ih]
    | false =>
      rw [List.flatMap_cons, List.filter_cons_of_pos (by simp [hpassive]), List.flatMap_cons, ih]

/-- Passive statements go on with nothing. -/
theorem goesOn?_of_isPassive {stmt : Stmt} (h : stmt.isPassive) : goesOn? stmt = none := by
  unfold goesOn?
  split
  · cases h
  · cases h
  · rfl

/-- Passive code goes on with nothing. -/
theorem filterMap_goesOn?_of_passive {code : List Stmt} (h : Passive code) :
    code.filterMap goesOn? = [] := by
  refine List.filterMap_eq_nil_iff.mpr fun stmt hstmt => goesOn?_of_isPassive (h stmt ?_)
  rw [partsAll_eq_flatMap, List.mem_flatMap]
  exact ⟨stmt, hstmt, by cases stmt <;> simp [parts]⟩

end Stmt

open Stmt

namespace Compiler

open Draft

variable {c : Compiler} {quiet check : Bool} {b : Behavior} {p t v : Nat} {trigger : String}

/-- Parts of code are balanced against behaviors and pseudo-states: they write those behaviors and
the transitions of what is in place, go on once for each behavior that leads on, and have in place
the given pseudo-states and those gone on with that are not shared. Whatever is in place was met
when compiling, and the path of every transition that is written was found. -/
structure Balanced (c : Compiler) (bs : List Behavior) (ps : List Nat) (parts : List Stmt) :
    Prop where
  rendered : ∀ b, (parts.filterMap behavior?).count b =
    bs.count b + ((parts.filterMap inlined?).flatMap c.outgoing).count b
  continued : parts.flatMap goesOnIn =
    (parts.filterMap behavior?).filterMap fun b => b.target.bind c.machine.completion
  inPlace : ∀ p, (parts.filterMap inlined?).count p =
    ps.count p + if c.plan.isShared p then 0 else (parts.flatMap goesOnIn).count p
  met : ∀ p ∈ parts.filterMap inlined?, ∃ seen, c.machine.Visits p seen
  paths : ∀ b ∈ parts.filterMap behavior?, ∀ t, b.target = some t → c.machine.hasPath b.owner t

namespace Balanced

variable {bs bs' : List Behavior} {ps ps' : List Nat} {parts parts' : List Stmt}

/-- No parts are balanced against nothing. -/
theorem nil : c.Balanced [] [] [] := ⟨by simp, rfl, by simp, by simp, by simp⟩

/-- Parts put together are balanced against both. -/
theorem append (h : c.Balanced bs ps parts) (h' : c.Balanced bs' ps' parts') :
    c.Balanced (bs ++ bs') (ps ++ ps') (parts ++ parts') where
  rendered b := by
    have := h.rendered b
    have := h'.rendered b
    simp only [List.filterMap_append, List.flatMap_append, List.count_append]
    omega
  continued := by
    rw [List.flatMap_append, List.filterMap_append, List.filterMap_append, h.continued,
      h'.continued]
  inPlace p := by
    have hp := h.inPlace p
    have hp' := h'.inPlace p
    simp only [List.filterMap_append, List.flatMap_append, List.count_append]
    split <;> simp_all only [if_true, if_false, Bool.false_eq_true] <;> omega
  met p hp := by
    rw [List.filterMap_append, List.mem_append] at hp
    exact hp.elim (h.met p) (h'.met p)
  paths b hb := by
    rw [List.filterMap_append, List.mem_append] at hb
    exact hb.elim (h.paths b) (h'.paths b)

/-- Many parts put together are balanced against all. -/
theorem flatMap {α : Type} {xs : List α} {bs : α → List Behavior} {ps : α → List Nat}
    {parts : α → List Stmt} (h : ∀ x ∈ xs, c.Balanced (bs x) (ps x) (parts x)) :
    c.Balanced (xs.flatMap bs) (xs.flatMap ps) (xs.flatMap parts) := by
  induction xs with
  | nil => exact nil
  | cons x xs ih =>
    rw [List.forall_mem_cons] at h
    exact append h.1 (ih h.2)

/-- A behavior that goes on with nothing is balanced against itself. -/
theorem behavior {guard : Option String} {body : List Stmt} {closed : Bool}
    (hbody : body.filterMap goesOn? = []) (hnext : b.target.bind c.machine.completion = none)
    (hpath : ∀ t, b.target = some t → c.machine.hasPath b.owner t) :
    c.Balanced [b] [] [.block (.behavior b guard) body closed] where
  rendered b' := by simp [List.filterMap_cons, behavior?, inlined?]
  continued := by simp [goesOnIn, behavior?, hbody, hnext]
  inPlace p := by simp [List.filterMap_cons, inlined?, goesOnIn, hbody]
  met p hp := by simp [List.filterMap_cons, inlined?] at hp
  paths b' hb' := by
    rw [List.mem_singleton.mp hb']
    exact hpath

/-- A behavior that goes on with a shared pseudo-state is balanced against itself. -/
theorem proceed {guard : Option String} {body : List Stmt} {closed : Bool}
    (hbody : body.filterMap goesOn? = [p]) (hnext : b.target.bind c.machine.completion = some p)
    (hshared : c.plan.isShared p = true)
    (hpath : ∀ t, b.target = some t → c.machine.hasPath b.owner t) :
    c.Balanced [b] [] [.block (.behavior b guard) body closed, .proceed p] where
  rendered b' := by simp [List.filterMap_cons, behavior?, inlined?]
  continued := by simp [List.filterMap_cons, goesOnIn, behavior?, hbody, hnext]
  inPlace q := by
    by_cases hq : q = p
    · simp [List.filterMap_cons, inlined?, hq, hshared]
    · simp [List.filterMap_cons, inlined?, goesOnIn, hbody, Ne.symm hq]
  met q hq := by simp [List.filterMap_cons, inlined?] at hq
  paths b' hb' := by
    rw [List.mem_singleton.mp hb']
    exact hpath

/-- A behavior that goes on in place is balanced against itself, if what is in place is balanced. -/
theorem goOn {guard : Option String} {body : List Stmt} {closed : Bool}
    (hbody : body.filterMap goesOn? = [p]) (hnext : b.target.bind c.machine.completion = some p)
    (hshared : c.plan.isShared p = false)
    (hpath : ∀ t, b.target = some t → c.machine.hasPath b.owner t) (h : c.Balanced [] [p] parts) :
    c.Balanced [b] [] (.block (.behavior b guard) body closed :: parts) where
  rendered b' := by
    have := h.rendered b'
    simp only [List.filterMap_cons, behavior?, inlined?, List.count_cons, List.count_nil] at this ⊢
    omega
  continued := by
    rw [List.flatMap_cons, goesOnIn, hbody, h.continued, List.filterMap_cons, behavior?,
      List.filterMap_cons, hnext]
    rfl
  inPlace q := by
    have hq := h.inPlace q
    simp only [List.filterMap_cons, inlined?, List.flatMap_cons, goesOnIn, hbody, List.count_append,
      List.count_nil] at hq ⊢
    by_cases hpq : q = p
    · subst hpq
      simp only [hshared, Bool.false_eq_true, if_false] at hq ⊢
      omega
    · have hzero : [p].count q = 0 := by simp [Ne.symm hpq]
      rw [hq, hzero, Nat.zero_add, Nat.zero_add, Nat.zero_add]
  met q hq := h.met q hq
  paths b' hb' := by
    rw [List.filterMap_cons, behavior?, List.mem_cons] at hb'
    rcases hb' with rfl | hb'
    · exact hpath
    · exact h.paths b' hb'

/-- A pseudo-state in place is balanced against itself, if its transitions are balanced. -/
theorem inlined {transitions : List Stmt} (h : c.Balanced (c.outgoing p) [] parts)
    (hmet : ∃ seen, c.machine.Visits p seen) :
    c.Balanced [] [p] (.inlined p transitions :: parts) where
  rendered b := by
    have := h.rendered b
    simp only [List.filterMap_cons, behavior?, inlined?, List.flatMap_cons, List.count_append,
      List.count_nil] at this ⊢
    omega
  continued := h.continued
  inPlace q := by
    have hq := h.inPlace q
    simp only [List.filterMap_cons, inlined?, List.flatMap_cons, goesOnIn, List.nil_append,
      List.count_cons, List.count_nil] at hq ⊢
    omega
  met q hq := by
    rw [List.filterMap_cons, inlined?, List.mem_cons] at hq
    rcases hq with rfl | hq
    · exact hmet
    · exact h.met q hq
  paths := h.paths

end Balanced

/-- A transition that compiles is balanced against itself, if pseudo-states in place are. -/
theorem balanced_transitionWith {inline : Nat → Draft} (hleads : b.hasTransition)
    (hinline : ∀ p, b.target.bind c.machine.completion = some p → c.plan.isShared p = false →
      (inline p).fault = none →
        (∃ body, (inline p).code = [.inlined p body]) ∧ c.Balanced [] [p] (active (inline p).code))
    (hfault : (c.transitionWith inline quiet check b).fault = none) :
    c.Balanced [b] [] (active (c.transitionWith inline quiet check b).code) := by
  obtain ⟨t, ht⟩ := Option.isSome_iff_exists.mp hleads
  obtain ⟨hsteps, guard, -, hcode⟩ := code_transitionWith ht hfault
  obtain ⟨hconclude, front, hfront, hfrontCode⟩ := code_transitionSteps hsteps
  have hpath : ∀ t, b.target = some t → c.machine.hasPath b.owner t := by
    intro t' ht'
    obtain rfl := Option.some.inj (ht.symm.trans ht')
    exact hasPath_of_transitionSteps hsteps
  have hbody : (c.transitionSteps inline quiet check b t).code.filterMap goesOn? =
      (c.conclude inline quiet t).code.filterMap goesOn? := by
    rw [hfrontCode, List.filterMap_append,
      filterMap_goesOn?_of_passive (passive_of_isApproach hfront), List.nil_append]
  rw [hcode, active_behaviorCode, (active_transitionSteps hsteps).2]
  rcases c.conclude_cases inline quiet t with ⟨hnone, hcase⟩ |
    ⟨p, hp, ⟨hshared, hcase⟩ | ⟨hshared, hcase⟩⟩
  · rw [hcase, code_emit] at hbody ⊢
    rw [active_completed]
    refine .behavior (hbody.trans ?_) (by rw [ht, Option.bind_some, hnone]) hpath
    cases quiet <;> rfl
  · rw [hcase, code_emit] at hbody ⊢
    rw [active_proceedTo]
    exact .proceed hbody (by rw [ht, Option.bind_some, hp]) hshared hpath
  · rw [hcase] at hbody hconclude ⊢
    have hnext : b.target.bind c.machine.completion = some p := by rw [ht, Option.bind_some, hp]
    obtain ⟨⟨body, hinlined⟩, hbalanced⟩ := hinline p hnext hshared hconclude
    exact .goOn (hbody.trans (by rw [hinlined]; rfl)) hnext hshared hpath hbalanced

/-- A pseudo-state that compiles in place is balanced against itself. -/
theorem balanced_inline (hplan : c.plan = c.machine.plan) (levels : Nat) {seen : List Nat}
    (hvisits : c.machine.Visits p seen) (hfault : (c.inline quiet levels p).fault = none) :
    (∃ body, (c.inline quiet levels p).code = [.inlined p body]) ∧
      c.Balanced [] [p] (active (c.inline quiet levels p).code) := by
  induction levels generalizing p seen with
  | zero => simp [inline] at hfault
  | succ levels ih =>
    obtain ⟨hfaults, -⟩ := code_inline hfault
    obtain ⟨transitions, hcode, hactive⟩ := active_inline hfault
    refine ⟨⟨transitions, hcode⟩, ?_⟩
    rw [hactive]
    refine .inlined ?_ ⟨seen, hvisits⟩
    have hall :
        c.Balanced ((c.outgoing p).flatMap fun b => [b]) ((c.outgoing p).flatMap fun _ => [])
        ((c.outgoing p).flatMap fun b =>
          active (c.transitionWith (c.inline quiet levels) quiet true b).code) := by
      refine .flatMap fun b hb => ?_
      obtain ⟨hmember, hleads⟩ := List.mem_filter.mp hb
      obtain ⟨hbehavior, howner⟩ := List.mem_filter.mp hmember
      refine balanced_transitionWith hleads (fun q hq hshared hfaultq => ?_) (hfaults b hb)
      exact ih
        (hvisits.next ⟨hvisits.isPseudo, ⟨b, hbehavior, beq_iff_eq.mp howner, hq⟩, hplan ▸ hshared⟩)
          hfaultq
    have hnone : ((c.outgoing p).flatMap fun _ => ([] : List Nat)) = [] := by
      simp [List.flatMap_eq_nil_iff]
    rwa [List.flatMap_singleton', hnone] at hall

/-- The behaviors of a state on a trigger are balanced against themselves. -/
theorem balanced_behaviorsFor (hplan : c.plan = c.machine.plan) (hv : v ∈ c.machine.states)
    (hfault : (c.behaviorsFor v trigger).fault = none) :
    c.Balanced (c.machine.behaviorsOn v trigger) [] (active (c.behaviorsFor v trigger).code) := by
  obtain ⟨hfaults, -⟩ := code_behaviorsFor hfault
  have hall : c.Balanced ((c.machine.behaviorsOn v trigger).flatMap fun b => [b])
      ((c.machine.behaviorsOn v trigger).flatMap fun _ => [])
      ((c.machine.behaviorsOn v trigger).flatMap fun b =>
        active (c.behaviorDraft v trigger b).code) := by
    refine .flatMap fun b hb => ?_
    have hfaultb := hfaults b hb
    rw [behaviorDraft] at hfaultb ⊢
    by_cases hleads : b.hasTransition
    · rw [if_pos hleads] at hfaultb ⊢
      obtain ⟨hmember, hhandles⟩ := List.mem_filter.mp hb
      obtain ⟨hbehavior, howner⟩ := List.mem_filter.mp hmember
      refine balanced_transitionWith hleads (fun q hq hplace hfaultq => ?_) hfaultb
      obtain ⟨t, -, ht⟩ := Option.bind_eq_some_iff.mp hq
      have hentered : c.machine.Entered q := .behavior hbehavior ((beq_iff_eq.mp howner).symm ▸ hv)
        (List.ne_nil_of_mem (List.contains_iff_mem.mp hhandles)) hq (hplan ▸ hplace)
      exact balanced_inline hplan _ (.entered (Machine.isPseudo_of_completion ht) hentered) hfaultq
    · rw [if_neg hleads] at hfaultb ⊢
      obtain ⟨guard, body, hbody, hactive⟩ := active_reaction hfaultb
      have hnone : b.target = none := by simpa [Behavior.hasTransition] using hleads
      rw [hactive]
      exact .behavior (filterMap_goesOn?_of_passive hbody) (by rw [hnone, Option.bind_none])
        (by simp [hnone])
  have hnone : ((c.machine.behaviorsOn v trigger).flatMap fun _ => ([] : List Nat)) = [] := by
    simp [List.flatMap_eq_nil_iff]
  rwa [List.flatMap_singleton', hnone, ← active_behaviorsFor hfault] at hall

/-- The behaviors that a function is written for. -/
def scheduledBy (c : Compiler) : Routine → List Behavior
  | .enter v => c.machine.behaviorsOn v Trigger.enter
  | .exit v => c.machine.behaviorsOn v Trigger.exit
  | .event v event => c.machine.behaviorsOn v event
  | .shared _ => []

/-- The pseudo-state that a function is written for. -/
def placedBy : Routine → List Nat
  | .shared p => [p]
  | _ => []

/-- The body of a function is balanced against what it is written for. -/
theorem balanced_routineBody (hplan : c.plan = c.machine.plan) {r : Routine} (hr : r ∈ c.routines)
    (hfault : (c.routineBody r).fault = none) :
    c.Balanced (c.scheduledBy r) (placedBy r) (active (c.routineBody r).code) := by
  obtain ⟨v, hv, rfl | rfl | ⟨event, -, rfl⟩ | ⟨p, hp, rfl⟩⟩ := mem_routines.mp hr
  · obtain ⟨hbehaviors, hactive⟩ := active_enter hfault
    rw [hactive]
    exact balanced_behaviorsFor hplan hv hbehaviors
  · obtain ⟨hbehaviors, hactive⟩ := active_exit hfault
    rw [hactive]
    exact balanced_behaviorsFor hplan hv hbehaviors
  · exact balanced_behaviorsFor hplan hv hfault
  · exact (balanced_inline hplan _ (.of_mem (List.mem_flatMap.mpr ⟨v, hv, hplan ▸ hp⟩)) hfault).2

/-- The transition that starts a machine, from the root to an initial pseudo-state. -/
def startBehavior (initial : Nat) : Behavior := { owner := Machine.root, target := some initial }

/-- The transition that starts a machine goes on with the initial pseudo-state of the root. -/
theorem next_startBehavior {m : Machine} (h : m.initialOf Machine.root = some p) :
    (startBehavior p).target.bind m.completion = some p := by
  have hpseudo := Machine.isPseudo_of_isInitial (Machine.initialOf_spec h).2
  rw [startBehavior, Option.bind_some, Machine.completion, if_pos hpseudo]

/-- The start function is balanced against the transition that starts the machine. -/
theorem balanced_start (hplan : c.plan = c.machine.plan)
    (hinitial : c.machine.initialOf Machine.root = some p) (hfault : c.start.fault = none) :
    c.Balanced [startBehavior p] [] (active c.startTransition.code) := by
  rw [start, fault_andThen, fault_emit, Option.none_or, startTransition] at hfault
  rw [startTransition]
  simp only [hinitial] at hfault ⊢
  refine balanced_transitionWith rfl (fun q hq hplace hfaultq => ?_) hfault
  obtain rfl : p = q := Option.some.inj ((next_startBehavior hinitial).symm.trans hq)
  have hpseudo := Machine.isPseudo_of_isInitial (Machine.initialOf_spec hinitial).2
  exact balanced_inline hplan _ (.entered hpseudo (.start hinitial (hplan ▸ hplace))) hfaultq

/-- A file is balanced against the transition that starts the machine and what its
functions are written for. -/
theorem balanced_file {config : Config} {vars : List AutoVar} (hplan : c.plan = c.machine.plan)
    (hinitial : c.machine.initialOf Machine.root = some p)
    (hfault : (c.functions config).fault = none) :
    c.Balanced (startBehavior p :: c.routines.flatMap c.scheduledBy) (c.routines.flatMap placedBy)
      (active (c.file config vars).code) := by
  obtain ⟨hstart, hroutines⟩ := fault_functions.mp hfault
  rw [active_file hfault]
  exact (balanced_start hplan hinitial hstart).append
    (.flatMap fun r hr => balanced_routineBody hplan hr (hroutines r hr))

end Compiler

end Statechart
