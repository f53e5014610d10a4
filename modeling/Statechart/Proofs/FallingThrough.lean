import Statechart.Document.Build
import Statechart.Proofs.ActiveParts
import Statechart.Proofs.Paths

/-!
# Control past pseudo-states

Where a transition goes on with a pseudo-state, it either calls the pseudo-state's function, with a
return behind the call, or finds the pseudo-state's transitions in place. The second has no return
of its own: if no guard holds, control falls through the transitions and reaches the behaviors
behind them, although states may have been left already.

Whether that can happen is read off the machine. A pseudo-state resolves if it is shared, or if it
has a transition without a guard that ends in a state or goes on with a pseudo-state that resolves.
A machine without problems may have pseudo-states that do not resolve.
-/

namespace Statechart

/-- There is a path through the code, whatever its statements do, that returns or falls through. -/
def Flows (code : List Stmt) (returned : Bool) : Prop :=
  Runs (fun _ (_ _ : Unit) => True) () code () returned

namespace Stmt

mutual

/-- Whether some path falls through the statement. -/
def falls : Stmt → Bool
  | ret _ => false
  | block head body _ => head.asks || fallsAll body
  | inlined _ body => fallsAll body
  | _ => true

/-- Whether some path falls through all statements. -/
def fallsAll : List Stmt → Bool
  | [] => true
  | stmt :: rest => falls stmt && fallsAll rest

end

/-- Some path falls through code in two pieces if one falls through each. -/
@[simp] theorem fallsAll_append (front code : List Stmt) :
    fallsAll (front ++ code) = (fallsAll front && fallsAll code) := by
  induction front with
  | nil => rfl
  | cons stmt front ih => rw [List.cons_append, fallsAll, fallsAll, ih, Bool.and_assoc]

/-- Some path falls through code if one falls through each statement. -/
theorem fallsAll_iff {code : List Stmt} : fallsAll code ↔ ∀ stmt ∈ code, stmt.falls := by
  induction code with
  | nil => simp [fallsAll]
  | cons stmt rest ih => rw [fallsAll, Bool.and_eq_true, ih, List.forall_mem_cons]

/-- Some path falls through many pieces of code if one falls through each. -/
theorem fallsAll_flatMap {α : Type} {xs : List α} {f : α → List Stmt} :
    fallsAll (xs.flatMap f) ↔ ∀ x ∈ xs, fallsAll (f x) := by
  induction xs with
  | nil => simp [fallsAll]
  | cons x xs ih =>
    rw [List.flatMap_cons, fallsAll_append, Bool.and_eq_true, ih, List.forall_mem_cons]

mutual

/-- There is a path through every statement: one that falls through, or else one that returns. -/
theorem flows_falls : (stmt : Stmt) → Flows [stmt] (!stmt.falls)
  | .ret note => .ret () note []
  | .block head body closed => by
    cases hasks : head.asks with
    | true => exact Runs.block_iff.mpr (.inr ⟨hasks, rfl, by simp [falls, hasks]⟩)
    | false =>
      rw [falls, hasks, Bool.false_or]
      exact Runs.block_iff.mpr (.inl ⟨(), trivial, flows_fallsAll body⟩)
  | .inlined p body => Runs.inlined_iff.mpr (flows_fallsAll body)
  | .line _ | .comment _ | .userCode _ | .gap | .enter _ | .exit _ | .exitUpTo _ | .setExit _
  | .setHandler .. | .restoreHandler .. | .passTo .. | .stopEvent _ | .settle _ | .proceed _
  | .callExit
  | .stopLoop => (Runs.step_iff rfl).mpr ⟨trivial, rfl⟩

/-- There is a path through all code: one that falls through, or else one that returns. -/
theorem flows_fallsAll : (code : List Stmt) → Flows code (!fallsAll code)
  | [] => .done ()
  | stmt :: rest => by
    have hfirst := flows_falls stmt
    rw [fallsAll, ← List.singleton_append]
    cases hfalls : stmt.falls with
    | true =>
      rw [hfalls] at hfirst
      exact hfirst.append_of_fallen (flows_fallsAll rest)
    | false =>
      rw [hfalls] at hfirst
      exact hfirst.append_of_returned rest

end

end Stmt

open Stmt

variable {code : List Stmt}

/-- A path falls through code only if the computed answer says so, whatever the statements do. -/
theorem fallsAll_of_runs {σ : Type} {effect : Stmt → σ → σ → Prop} {s u : σ}
    (h : Runs effect s code u false) :
    fallsAll code := by
  generalize hend : false = returned at h
  induction h with
  | done => rfl
  | ret => cases hend
  | @step _ _ _ stmt rest _ hstep _ _ ih =>
    have hfalls : stmt.falls := by cases stmt <;> first | rfl | cases hstep
    rw [fallsAll, hfalls, ih hend]
    rfl
  | into _ _ ih =>
    have hboth := ih hend
    rw [fallsAll_append, Bool.and_eq_true] at hboth
    rw [fallsAll, falls, hboth.1, hboth.2, Bool.or_true]
    rfl
  | past hasks _ ih =>
    rw [fallsAll, falls, hasks, ih hend]
    rfl
  | inlined _ ih =>
    have hboth := ih hend
    rwa [fallsAll_append] at hboth

/-- A path falls through code if and only if the computed answer says so. -/
theorem flows_false_iff : Flows code false ↔ fallsAll code := by
  constructor
  · exact fallsAll_of_runs
  · intro h
    have hflows := flows_fallsAll code
    rwa [h] at hflows

instance (code : List Stmt) : Decidable (Flows code false) :=
  decidable_of_iff _ flows_false_iff.symm

/-- All paths return if none falls through. -/
theorem returns_iff : (∀ returned, Flows code returned → returned = true) ↔
    fallsAll code = false := by
  rw [← Bool.not_eq_true, ← flows_false_iff]
  constructor
  · intro h hfalls
    exact Bool.false_ne_true (h false hfalls)
  · intro h returned hflows
    cases returned with
    | true => rfl
    | false => exact absurd hflows h

/-- A pseudo-state resolves if it is shared, or if it has a transition without a guard that ends in
a state or goes on with a pseudo-state that resolves. -/
inductive Machine.Resolves (m : Machine) : Nat → Prop
  | shared {p : Nat} (h : m.plan.isShared p) : Resolves m p
  | transition {p t : Nat} {b : Behavior} (hb : b ∈ m.behaviorsOf p) (hguard : b.hasGuard = false)
      (ht : b.target = some t) (hnext : ∀ q, m.completion t = some q → Resolves m q) : Resolves m p

namespace Compiler

open Draft

variable {c : Compiler} {quiet check : Bool} {b : Behavior} {p t v : Nat} {trigger : String}

/-- Moving along a transition does not return, if entering states leads nowhere else. -/
theorem falls_of_isApproach (h : ∀ stmt ∈ code, c.IsApproach quiet stmt) : fallsAll code := by
  refine fallsAll_iff.mpr fun stmt hstmt => ?_
  rcases h stmt hstmt with hmove | ⟨v, rfl⟩
  · cases stmt <;> first | rfl | cases hmove
  · rfl

/-- A transition that compiles falls through exactly where its guard fails or its
conclusion falls through. -/
theorem falls_transitionWith {inline : Nat → Draft} (ht : b.target = some t)
    (hfault : (c.transitionWith inline quiet check b).fault = none) :
    fallsAll (c.transitionWith inline quiet check b).code =
      (b.hasGuard || fallsAll (c.conclude inline quiet t).code) := by
  obtain ⟨hsteps, guard, hguard, hcode⟩ := code_transitionWith ht hfault
  obtain ⟨-, front, hfront, hfrontCode⟩ := code_transitionSteps hsteps
  have hasks : (Head.behavior b guard).asks = b.hasGuard := by
    rw [← hguard]
    cases guard <;> rfl
  rw [hcode, behaviorCode, hfrontCode]
  simp [fallsAll, falls, hasks, falls_of_isApproach hfront]

/-- The conclusion of a transition falls through only into a pseudo-state that does not resolve. -/
theorem falls_conclude {inline : Nat → Draft} (hplan : c.plan = c.machine.plan)
    (hinline : ∀ p, c.plan.isShared p = false → (inline p).fault = none →
      (fallsAll (inline p).code ↔ ¬ c.machine.Resolves p))
    (hfault : (c.conclude inline quiet t).fault = none) :
    fallsAll (c.conclude inline quiet t).code ↔
      ∃ p, c.machine.completion t = some p ∧ ¬ c.machine.Resolves p := by
  rcases c.conclude_cases inline quiet t with ⟨hnone, hcode⟩ |
    ⟨p, hp, ⟨hshared, hcode⟩ | ⟨hshared, hcode⟩⟩
  · rw [hcode, hnone]
    cases quiet <;> simp [completed, release, nothingToStop, fallsAll, falls]
  · rw [hcode, hp]
    simp [proceedTo, fallsAll, falls, Machine.Resolves.shared (hplan ▸ hshared)]
  · rw [hcode] at hfault ⊢
    simp [hp, hinline p hshared hfault]

/-- A pseudo-state that compiles in place is fallen through exactly if it does not resolve. -/
theorem falls_inline {levels : Nat} (hplan : c.plan = c.machine.plan)
    (hshared : c.plan.isShared p = false) (hfault : (c.inline quiet levels p).fault = none) :
    fallsAll (c.inline quiet levels p).code ↔ ¬ c.machine.Resolves p := by
  -- The levels are those that the compiler itself descends by.
  induction levels generalizing p with
  | zero => simp [inline] at hfault
  | succ levels ih =>
    obtain ⟨hfaults, hcode⟩ := code_inline hfault
    have hfalls (b : Behavior) (t : Nat) (hb : b ∈ c.outgoing p) (ht : b.target = some t) :
        fallsAll (c.transitionWith (c.inline quiet levels) quiet true b).code ↔
          b.hasGuard ∨ ∃ q, c.machine.completion t = some q ∧ ¬ c.machine.Resolves q := by
      obtain ⟨hsteps, -⟩ := code_transitionWith ht (hfaults b hb)
      rw [falls_transitionWith ht (hfaults b hb), Bool.or_eq_true,
        falls_conclude hplan (fun q hq hfaultq => ih hq hfaultq) (code_transitionSteps hsteps).1]
    have hbody : fallsAll (c.inline quiet (levels + 1) p).code ↔ ∀ b ∈ c.outgoing p,
        fallsAll (c.transitionWith (c.inline quiet levels) quiet true b).code := by
      rw [hcode, fallsAll, falls, fallsAll, Bool.and_true, fallsAll_flatMap]
      simp [fallsAll, falls]
    rw [hbody]
    constructor
    · intro hall hresolves
      cases hresolves with
      | shared h => simp [← hplan, hshared] at h
      | @transition _ t b hb hguard ht hnext =>
        have hout : b ∈ c.outgoing p :=
          List.mem_filter.mpr ⟨hb, by simp [Behavior.hasTransition, ht]⟩
        rcases (hfalls b t hout ht).mp (hall b hout) with h | ⟨q, hq, hnot⟩
        · simp [hguard] at h
        · exact hnot (hnext q hq)
    · intro hnot b hb
      obtain ⟨hmember, hleads⟩ := List.mem_filter.mp hb
      obtain ⟨t, ht⟩ := Option.isSome_iff_exists.mp hleads
      rw [hfalls b t hb ht]
      by_contra hneither
      rw [not_or] at hneither
      refine hnot (.transition hmember (by simpa using hneither.1) ht fun q hq => ?_)
      by_contra hq'
      exact hneither.2 ⟨q, hq, hq'⟩

/-- The statement is no transition, or holds the steps of one that compiled. -/
def IsPlaced (c : Compiler) (stmt : Stmt) : Prop :=
  ∀ b guard body closed t, stmt = .block (.behavior b guard) body closed → b.target = some t →
    ∃ quiet check levels, (c.transitionSteps (c.inline quiet levels) quiet check b t).fault = none ∧
      body = (c.transitionSteps (c.inline quiet levels) quiet check b t).code

/-- All behaviors in a transition are placed if those in pseudo-states in place are. -/
theorem isPlaced_transitionWith {levels : Nat} (hleads : b.hasTransition)
    (hinline : ∀ p, (c.inline quiet levels p).fault = none →
      ∀ stmt ∈ active (c.inline quiet levels p).code, c.IsPlaced stmt)
    (hfault : (c.transitionWith (c.inline quiet levels) quiet check b).fault = none) :
    ∀ stmt ∈ active (c.transitionWith (c.inline quiet levels) quiet check b).code,
      c.IsPlaced stmt := by
  obtain ⟨t, ht⟩ := Option.isSome_iff_exists.mp hleads
  obtain ⟨hsteps, guard, -, hcode⟩ := code_transitionWith ht hfault
  obtain ⟨hconclude, hactive⟩ := active_transitionSteps hsteps
  rw [hcode, active_behaviorCode, hactive, List.forall_mem_cons]
  refine ⟨?_, ?_⟩
  · intro b' guard' body closed t' heq ht'
    obtain ⟨hhead, rfl, -⟩ := Stmt.block.inj heq
    obtain ⟨rfl, -⟩ := Head.behavior.inj hhead
    obtain rfl : t = t' := Option.some.inj (ht.symm.trans ht')
    exact ⟨quiet, check, levels, hsteps, rfl⟩
  · rcases c.conclude_cases (c.inline quiet levels) quiet t with
      ⟨-, hcode⟩ | ⟨p, -, ⟨-, hcode⟩ | ⟨-, hcode⟩⟩
    · rw [hcode, code_emit, active_completed]
      simp
    · rw [hcode, code_emit, active_proceedTo]
      simp [IsPlaced]
    · rw [hcode] at hconclude ⊢
      exact hinline p hconclude

/-- All behaviors in a pseudo-state in place are placed. -/
theorem isPlaced_inline (levels : Nat) (p : Nat) (hfault : (c.inline quiet levels p).fault = none) :
    ∀ stmt ∈ active (c.inline quiet levels p).code, c.IsPlaced stmt := by
  induction levels generalizing p with
  | zero => simp [inline] at hfault
  | succ levels ih =>
    obtain ⟨hfaults, -⟩ := code_inline hfault
    obtain ⟨transitions, -, hactive⟩ := active_inline hfault
    rw [hactive, List.forall_mem_cons, List.forall_mem_flatMap]
    refine ⟨by simp [IsPlaced], fun b hb => ?_⟩
    exact isPlaced_transitionWith (List.mem_filter.mp hb).2 ih (hfaults b hb)

/-- All behaviors of a state on a trigger are placed. -/
theorem isPlaced_behaviorsFor (hfault : (c.behaviorsFor v trigger).fault = none) :
    ∀ stmt ∈ active (c.behaviorsFor v trigger).code, c.IsPlaced stmt := by
  obtain ⟨hfaults, -⟩ := code_behaviorsFor hfault
  rw [active_behaviorsFor hfault, List.forall_mem_flatMap]
  intro b hb
  have hfaultb := hfaults b hb
  rw [behaviorDraft] at hfaultb ⊢
  by_cases hleads : b.hasTransition
  · rw [if_pos hleads] at hfaultb ⊢
    exact isPlaced_transitionWith hleads (isPlaced_inline _) hfaultb
  · rw [if_neg hleads] at hfaultb ⊢
    obtain ⟨guard, body, -, hactive⟩ := active_reaction hfaultb
    rw [hactive]
    intro stmt hstmt b' guard' body' closed t heq ht
    rw [List.mem_singleton.mp hstmt] at heq
    obtain ⟨rfl, -⟩ := Head.behavior.inj (Stmt.block.inj heq).1
    exact absurd (by simp [Behavior.hasTransition, ht]) hleads

/-- All behaviors in a file are placed. -/
theorem isPlaced_file {config : Config} {vars : List AutoVar}
    (hfault : (c.functions config).fault = none) :
    ∀ stmt ∈ active (c.file config vars).code, c.IsPlaced stmt := by
  obtain ⟨hstart, hroutines⟩ := fault_functions.mp hfault
  rw [active_file hfault, List.forall_mem_append, List.forall_mem_flatMap]
  refine ⟨?_, fun r hr => ?_⟩
  · rw [start, fault_andThen, fault_emit, Option.none_or] at hstart
    unfold startTransition at hstart ⊢
    split
    · simp [active, parts, isPassive]
    · next i hi =>
      simp only [hi] at hstart
      exact isPlaced_transitionWith rfl (isPlaced_inline _) hstart
  · have hbody := hroutines r hr
    cases r with
    | enter v =>
      obtain ⟨hbehaviors, hactive⟩ := active_enter hbody
      rw [hactive]
      exact isPlaced_behaviorsFor hbehaviors
    | exit v =>
      obtain ⟨hbehaviors, hactive⟩ := active_exit hbody
      rw [hactive]
      exact isPlaced_behaviorsFor hbehaviors
    | event v event => exact isPlaced_behaviorsFor hbody
    | shared p => exact isPlaced_inline _ p hbody

end Compiler

/-- Wherever a file goes on with a pseudo-state, at the end of a transition, there is the call of
its function with a return behind it or its transitions in place. All paths through that return if
and only if the pseudo-state resolves. -/
theorem Machine.generated_continuations_return {m : Machine} {config : Config}
    {expander : Snippet.Expander} {ctx : Context} {vars : List AutoVar} {text : String}
    {b : Behavior} {guard : Option String} {body : List Stmt} {closed : Bool} {p : Nat}
    (htext : m.generateWith config expander ctx = .ok text)
    (hblock : .block (.behavior b guard) body closed ∈
      partsAll ((m.compiler expander ctx).file config vars).code)
    (hp : b.target.bind m.completion = some p) :
    ∃ front site, body = front ++ site ∧
      (m.plan.isShared p = true ∧ site = Compiler.proceedTo p ∨
        m.plan.isShared p = false ∧ ∃ transitions, site = [.inlined p transitions]) ∧
      (∃ returned, Flows site returned) ∧
      ((∀ returned, Flows site returned → returned = true) ↔ m.Resolves p) := by
  have hfault := fault_functions_of_generateWith htext
  obtain ⟨t, ht, hcompletion⟩ := Option.bind_eq_some_iff.mp hp
  obtain ⟨quiet, check, levels, hsteps, rfl⟩ :=
    Compiler.isPlaced_file hfault _ (mem_active.mpr ⟨hblock, rfl⟩) b guard body closed t rfl ht
  obtain ⟨hconclude, front, -, hcode⟩ := Compiler.code_transitionSteps hsteps
  refine ⟨front, _, hcode, ?_, ⟨_, flows_fallsAll _⟩, ?_⟩
  · rcases Compiler.conclude_cases (m.compiler expander ctx) _ quiet t with
      ⟨hnone, -⟩ | ⟨q, hq, ⟨hshared, hsite⟩ | ⟨hshared, hsite⟩⟩
    · cases hcompletion.symm.trans hnone
    · obtain rfl : p = q := Option.some.inj (hcompletion.symm.trans hq)
      exact .inl ⟨hshared, by rw [hsite, Draft.code_emit]⟩
    · obtain rfl : p = q := Option.some.inj (hcompletion.symm.trans hq)
      rw [hsite] at hconclude ⊢
      cases levels with
      | zero => simp [Compiler.inline] at hconclude
      | succ levels => exact .inr ⟨hshared, _, (Compiler.code_inline hconclude).2⟩
  · rw [returns_iff, ← Bool.not_eq_true, Compiler.falls_conclude (c := m.compiler expander ctx) rfl
      (fun q hq hfaultq => Compiler.falls_inline rfl hq hfaultq) hconclude]
    constructor
    · intro hnot
      by_contra hresolves
      exact hnot ⟨p, hcompletion, hresolves⟩
    · rintro hresolves ⟨q, hq, hnot⟩
      obtain rfl : p = q := Option.some.inj (hcompletion.symm.trans hq)
      exact hnot hresolves

/-- A gate that is pushed open if it is unlocked, and that rings when it is pushed. -/
def gateModel : ModelDoc where
  name := "Gate"
  vertices := [
    .initial [{ target := some "Shut" }],
    .state "Shut" [
      { triggers := ["push"], target := some "ROOT.ChoicePoint(lock)" },
      { triggers := ["push"], action := some "ring();" }] [],
    .state "Open" [] [],
    .point .choice "lock" [{ guard := some "unlocked", target := some "Open" }]]

/-- The machine of the gate. -/
def gate : Machine :=
  (Machine.new "Gate").addVertex Machine.root .initial
    |>.addVertex Machine.root (.state "Shut")
    |>.addVertex Machine.root (.state "Open")
    |>.addVertex Machine.root (.point .choice "lock")
    |>.addBehavior 1 { target := some 2 }
    |>.addBehavior 2 { triggers := ["push"], target := some 4 }
    |>.addBehavior 2 { triggers := ["push"], action := some "ring();" }
    |>.addBehavior 4 { guard := some "unlocked", target := some 3 }

/-- The behavior that pushes the gate towards its lock. -/
def gatePush : Behavior := { owner := 2, triggers := ["push"], target := some 4 }

/-- Whether the statement is the block of the behavior. -/
def Stmt.isBehavior (b : Behavior) : Stmt → Bool
  | .block (.behavior b' _) _ _ => b' == b
  | _ => false

/-- Whether the statement leaves the state. -/
def Stmt.isExitOf (v : Nat) : Stmt → Bool
  | .exit w => w == v
  | _ => false

/-- Whether the statement is a behavior without a guard that leaves the state. -/
def Stmt.alwaysLeaves (v : Nat) : Stmt → Bool
  | .block (.behavior _ none) body _ => body.any (isExitOf v)
  | _ => false

/-- Code that has the behavior has a block for it. -/
theorem exists_block_of_any {b : Behavior} (h : code.any (isBehavior b)) :
    ∃ guard body closed, .block (.behavior b guard) body closed ∈ code := by
  obtain ⟨stmt, hstmt, hbehavior⟩ := List.any_eq_true.mp h
  unfold isBehavior at hbehavior
  split at hbehavior
  · next b' guard body closed =>
    obtain rfl := beq_iff_eq.mp hbehavior
    exact ⟨guard, body, closed, hstmt⟩
  · cases hbehavior

/-- The gate has no problems and a file. Its handler of being pushed always leaves Shut, and still a
path falls off its end. -/
theorem gate_push_falls_through :
    gateModel.build = .ok gate ∧ gate.problems = [] ∧ (∃ text, gate.generate {} = .ok text) ∧
      ∃ body, .block (.routine (.event 2 "push")) body true ∈
        ((gate.compiler {} {}).functions {}).code ∧
        body.any (alwaysLeaves 2) ∧ Flows body false := by
  have hok : (gate.generate {}).toOption.isSome ∧ (gate.generateWith {} {} {}).toOption.isSome := by
    decide +kernel
  obtain ⟨text, htext⟩ := exists_eq_ok hok.2
  have hblock := (Compiler.mem_code_functions (Machine.fault_functions_of_generateWith htext)).mpr
    ⟨(by decide +kernel : .event 2 "push" ∈ (gate.compiler {} {}).routines), rfl, rfl⟩
  exact ⟨by decide +kernel, by decide +kernel, exists_eq_ok hok.1, _, hblock, by decide +kernel,
    by decide +kernel⟩

/-- The lock of the gate does not resolve, and some path falls through its transitions. -/
theorem gate_lock_falls_through :
    ¬ gate.Resolves 4 ∧ ∃ guard front transitions closed,
      .block (.behavior gatePush guard) (front ++ [.inlined 4 transitions]) closed ∈
        partsAll ((gate.compiler {} {}).file {} []).code ∧
          Flows [.inlined 4 transitions] false := by
  have hunshared : gate.plan.isShared 4 = false := by decide +kernel
  have hguards : ∀ b ∈ gate.behaviorsOf 4, b.hasGuard = true := by decide +kernel
  have hresolves : ¬ gate.Resolves 4 := by
    intro h
    cases h with
    | shared h => simp [hunshared] at h
    | transition hb hguard => simp [hguards _ hb] at hguard
  obtain ⟨text, htext⟩ : ∃ text, gate.generateWith {} {} {} = .ok text :=
    exists_eq_ok (by decide +kernel)
  obtain ⟨guard, body, closed, hblock⟩ : ∃ guard body closed,
    .block (.behavior gatePush guard) body closed ∈
      partsAll ((gate.compiler {} {}).file {} []).code := exists_block_of_any (by decide +kernel)
  obtain ⟨front, site, rfl, hsite, -, hiff⟩ :=
    Machine.generated_continuations_return htext hblock (by decide +kernel : _ = some 4)
  rcases hsite with ⟨hshared, -⟩ | ⟨-, transitions, rfl⟩
  · simp [hunshared] at hshared
  · refine ⟨hresolves, guard, front, transitions, closed, hblock, ?_⟩
    rw [returns_iff, ← Bool.not_eq_true, ← flows_false_iff] at hiff
    by_contra hnot
    exact hresolves (hiff.mp hnot)

end Statechart
