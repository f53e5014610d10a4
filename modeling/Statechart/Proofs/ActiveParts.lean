import Statechart.Proofs.FileParts
import Statechart.Proofs.TransitionCode

/-!
# The active parts of a file

The active parts of code are the behaviors in it and the pseudo-states that it goes on with, at any
depth. All that is fixed in a file is passive, so the active parts of a file are those of its start
function and of its routines, one after the other.
-/

namespace Statechart

/-- The behaviors in code and the pseudo-states that it goes on with, at any depth. -/
def Stmt.active (code : List Stmt) : List Stmt := (partsAll code).filter fun stmt => !stmt.isPassive

namespace Stmt

variable {stmt : Stmt} {front code body : List Stmt} {head : Head} {closed : Bool}

/-- The active parts of code in two pieces. -/
@[simp] theorem active_append (front code : List Stmt) :
    active (front ++ code) = active front ++ active code := by
  rw [active, partsAll_append, List.filter_append, active, active]

/-- The active parts of code come statement by statement. -/
theorem active_cons (stmt : Stmt) (rest : List Stmt) :
    active (stmt :: rest) = active [stmt] ++ active rest := by
  rw [← active_append, List.singleton_append]

/-- The active parts of many pieces of code. -/
theorem active_flatMap {α : Type} (xs : List α) (f : α → List Stmt) :
    active (xs.flatMap f) = xs.flatMap fun x => active (f x) := by
  induction xs with
  | nil => rfl
  | cons x xs ih => rw [List.flatMap_cons, active_append, ih, List.flatMap_cons]

/-- Nothing is active in passive code. -/
theorem active_of_passive (h : Passive code) : active code = [] := by
  rw [active, List.filter_eq_nil_iff]
  intro stmt hstmt
  simp [h stmt hstmt]

/-- The active parts are the parts that are not passive. -/
theorem mem_active : stmt ∈ active code ↔ stmt ∈ partsAll code ∧ stmt.isPassive = false := by
  simp [active]

/-- A block that is no behavior is as active as its body. -/
theorem active_block (h : (block head body closed).isPassive) :
    active [block head body closed] = active body := by
  simp [active, h]

/-- A behavior is active, and so is what is active in its body. -/
theorem active_behavior (b : Behavior) (guard : Option String) (body : List Stmt) (closed : Bool) :
    active [block (.behavior b guard) body closed] =
      block (.behavior b guard) body closed :: active body := by
  simp [active, isPassive]

/-- A pseudo-state in place is active, and so is what is active in its transitions. -/
theorem active_inlined (p : Nat) (body : List Stmt) :
    active [inlined p body] = inlined p body :: active body := by
  simp [active, isPassive]

end Stmt

open Stmt

/-- What is fixed in a file is passive. -/
theorem isPassive_of_isFixed {stmt : Stmt} (h : stmt.isFixed) : stmt.isPassive := by
  unfold Stmt.isFixed at h
  split at h
  case h_10 => cases h
  all_goals rfl

namespace Compiler

open Draft

variable {c : Compiler} {quiet check : Bool} {b : Behavior} {p t v : Nat} {trigger : String}

/-- What moves along a transition is passive. -/
theorem passive_of_isApproach {code : List Stmt} (h : ∀ stmt ∈ code, c.IsApproach quiet stmt) :
    Passive code := by
  refine Passive.of_parts fun stmt hstmt => ?_
  rcases h stmt hstmt with hmove | ⟨v, rfl⟩
  · unfold Stmt.isMove at hmove
    split at hmove
    case h_7 => cases hmove
    all_goals simp [parts, isPassive]
  · cases quiet <;> simp [movedOnCheck, release, nothingToStop, parts, isPassive]

/-- What hands an event on to outer states is passive. -/
theorem passive_handOn (c : Compiler) (v : Nat) (trigger : String) :
    Passive (c.handOn v trigger) := by
  unfold handOn handOver
  split
  · split <;> simp [Passive, parts, isPassive]
  · simp [Passive]

/-- Taking over the events of a state is passive. -/
theorem passive_takeOver (c : Compiler) (v : Nat) : Passive (c.takeOver v) := by
  refine Passive.of_parts fun stmt hstmt => ?_
  simp only [takeOver, List.mem_append, List.mem_cons, List.mem_map, List.not_mem_nil,
    or_false] at hstmt
  rcases hstmt with ((rfl | rfl) | ⟨event, -, rfl⟩) | rfl <;> simp [parts, isPassive]

/-- Handing the events of a state back is passive. -/
theorem passive_handBack (c : Compiler) (v : Nat) : Passive (c.handBack v).code := by
  refine Passive.of_parts fun stmt hstmt => ?_
  unfold handBack at hstmt
  split at hstmt
  · simp [List.mem_singleton.mp hstmt, parts, isPassive]
  · split at hstmt
    · simp only [code_emit, List.cons_append, List.nil_append, List.mem_cons, List.mem_map] at hstmt
      rcases hstmt with rfl | rfl | ⟨event, -, rfl⟩ <;> simp [parts, isPassive]
    · simp [fail] at hstmt

/-- The code of a behavior is as active as its block. -/
theorem active_behaviorCode (c : Compiler) (b : Behavior) (guard : Option String)
    (body : List Stmt) :
    active (c.behaviorCode b guard body) = .block (.behavior b guard) body true :: active body := by
  rw [← active_behavior]
  rfl

/-- A behavior without a transition is the only active part of its code. -/
theorem active_reaction (hfault : (c.reaction trigger quiet b).fault = none) :
    ∃ guard body, Passive body ∧
      active (c.reaction trigger quiet b).code = [.block (.behavior b guard) body true] := by
  obtain ⟨guard, body, hbody, hcode⟩ := code_reaction hfault
  have hpassive := Passive.of_isReactive hbody
  exact ⟨guard, body, hpassive, by rw [hcode, active_behaviorCode, active_of_passive hpassive]⟩

/-- The active parts of a transition's steps are those of its conclusion. -/
theorem active_transitionSteps {inline : Nat → Draft}
    (hfault : (c.transitionSteps inline quiet check b t).fault = none) :
    (c.conclude inline quiet t).fault = none ∧
      active (c.transitionSteps inline quiet check b t).code =
        active (c.conclude inline quiet t).code := by
  obtain ⟨hconclude, front, hfront, hcode⟩ := code_transitionSteps hfault
  refine ⟨hconclude, ?_⟩
  rw [hcode, active_append, active_of_passive (passive_of_isApproach hfront), List.nil_append]

/-- Nothing is active in the end of a transition in a state. -/
theorem active_completed (quiet : Bool) (t : Nat) : active (completed quiet t) = [] := by
  refine active_of_passive ?_
  cases quiet <;> simp [Passive, completed, release, nothingToStop, parts, isPassive]

/-- Going on with a shared pseudo-state is the one active part of its call. -/
theorem active_proceedTo (p : Nat) : active (proceedTo p) = [.proceed p] := by
  simp [active, proceedTo, parts, isPassive]

/-- The active parts of a pseudo-state in place are itself and those of its transitions. -/
theorem active_inline {levels : Nat} (hfault : (c.inline quiet (levels + 1) p).fault = none) :
    ∃ transitions, (c.inline quiet (levels + 1) p).code = [.inlined p transitions] ∧
      active (c.inline quiet (levels + 1) p).code =
        .inlined p transitions :: (c.outgoing p).flatMap fun b =>
        active (c.transitionWith (c.inline quiet levels) quiet true b).code := by
  obtain ⟨-, hcode⟩ := code_inline hfault
  refine ⟨_, hcode, ?_⟩
  rw [hcode, active_inlined, active_flatMap]
  refine congrArg _ (List.flatMap_congr fun b _ => ?_)
  rw [active_append]
  exact List.append_nil _

/-- The active parts of a state's behaviors on a trigger. -/
theorem active_behaviorsFor (hfault : (c.behaviorsFor v trigger).fault = none) :
    active (c.behaviorsFor v trigger).code =
      (c.machine.behaviorsOn v trigger).flatMap fun b =>
        active (c.behaviorDraft v trigger b).code := by
  rw [(code_behaviorsFor hfault).2, active_append, active_of_passive (c.passive_handOn v trigger),
    List.nil_append, behaviorsCode, active_flatMap]
  refine List.flatMap_congr fun b _ => ?_
  rw [active_append]
  exact List.append_nil _

/-- The active parts of a function that enters a state are those of what happens there. -/
theorem active_enter (hfault : (c.routineBody (.enter v)).fault = none) :
    (c.behaviorsFor v Trigger.enter).fault = none ∧
      active (c.routineBody (.enter v)).code = active (c.behaviorsFor v Trigger.enter).code := by
  rw [routineBody, fault_andThen, fault_emit, Option.none_or] at hfault
  refine ⟨hfault, ?_⟩
  rw [routineBody, code_andThen (fault_emit _), code_emit, active_append,
    active_of_passive (c.passive_takeOver v), List.nil_append]

/-- The active parts of a function that leaves a state are those of what happens there. -/
theorem active_exit (hfault : (c.routineBody (.exit v)).fault = none) :
    (c.behaviorsFor v Trigger.exit).fault = none ∧
      active (c.routineBody (.exit v)).code = active (c.behaviorsFor v Trigger.exit).code := by
  rw [routineBody, fault_andThen, Option.or_eq_none_iff] at hfault
  refine ⟨hfault.1, ?_⟩
  rw [routineBody, code_andThen hfault.1, active_append, active_of_passive (c.passive_handBack v),
    List.append_nil]

/-- The active parts of the function of a routine. -/
theorem active_routineCode (c : Compiler) (r : Routine) :
    active (c.routineCode r) = active (c.routineBody r).code := by
  rw [routineCode, active_cons, active_block rfl]
  exact List.append_nil _

/-- The active parts of the start function are those of its transition. -/
theorem active_start : active c.start.code = active c.startTransition.code := by
  rw [start, code_andThen (fault_emit _), code_emit, active_append,
    active_of_passive (passive_of_isApproach fun stmt => isApproach_enterCall), List.nil_append]

/-- The active parts of a file are those of its start function and of its routines in order. -/
theorem active_file {config : Config} {vars : List AutoVar}
    (hfault : (c.functions config).fault = none) :
    active (c.file config vars).code =
      active c.startTransition.code ++ c.routines.flatMap fun r =>
        active (c.routineBody r).code := by
  have hkeep (stmt : Stmt) (h : stmt.isFixed) : (!stmt.isPassive) = false := by
    rw [isPassive_of_isFixed h, Bool.not_true]
  rw [active, filter_parts_file hkeep hfault, ← active_start]
  exact congrArg _ (List.flatMap_congr fun r _ => c.active_routineCode r)

end Compiler

end Statechart
