import Mathlib.Data.List.Basic
import Statechart.Compile.File
import Statechart.Proofs.Drafts
import Statechart.Proofs.States

/-!
# The functions of a generated file

A generated file holds one function for each routine of its states, and nothing else that stands for
a routine. If the file is generated at all, the start function and every routine compiled without a
fault.
-/

namespace Statechart

open Draft

namespace Compiler

variable {c : Compiler} {config : Config} {r : Routine} {v : Nat}

/-- The body of the function for a routine. -/
def routineBody (c : Compiler) : Routine → Draft
  | .enter v => emit (c.takeOver v) >> c.behaviorsFor v Trigger.enter
  | .exit v => c.behaviorsFor v Trigger.exit >> c.handBack v
  | .event v event => c.behaviorsFor v event
  | .shared p => c.inline false (c.levelsAt 0) p

/-- The routines of a state and of the shared pseudo-states right inside it. -/
def routinesOf (c : Compiler) (v : Nat) : List Routine :=
  .enter v :: .exit v :: (c.machine.eventsOf v).map (.event v) ++
  (c.plan.sharedIn c.machine v).map .shared

/-- All routines, state by state. -/
def routines (c : Compiler) : List Routine := c.machine.states.flatMap c.routinesOf

/-- A routine belongs to a listed state, to one of its events, or to a shared
pseudo-state right inside it. -/
theorem mem_routines : r ∈ c.routines ↔ ∃ v ∈ c.machine.states, r = .enter v ∨ r = .exit v ∨
    (∃ event ∈ c.machine.eventsOf v, r = .event v event) ∨ ∃ p ∈ c.plan.sharedIn c.machine v,
      r = .shared p := by
  simp only [routines, routinesOf, List.mem_flatMap, List.cons_append, List.mem_cons,
    List.mem_append, List.mem_map, eq_comm]

/-- Only listed states have routines for events. -/
theorem mem_states_of_event {event : String} (hr : .event v event ∈ c.routines) :
    v ∈ c.machine.states := by
  obtain ⟨w, hw, hr | hr | ⟨e, -, hr⟩ | ⟨p, -, hr⟩⟩ := mem_routines.mp hr
  · cases hr
  · cases hr
  · rwa [(Routine.event.inj hr).1]
  · cases hr

/-- The code of the function for a routine. -/
def routineCode (c : Compiler) (r : Routine) : List Stmt :=
  [.block (.routine r) (c.routineBody r).code true, .gap]

/-- A function compiles if its body does. -/
theorem fault_routine (r : Routine) (body : Draft) : (routine r body).fault = body.fault := by
  simp [routine]

/-- The code of a function that compiles. -/
theorem code_routine (h : (c.routineBody r).fault = none) :
    (routine r (c.routineBody r)).code = c.routineCode r := by
  rw [routine, code_andThen (by rw [fault_block, h]), code_block h, code_emit]
  rfl

/-- The function of a pseudo-state that is listed as shared is its routine. -/
theorem sharedRoutine_eq {p : Nat} (h : p ∈ c.plan.sharedIn c.machine v) :
    c.sharedRoutine p = routine (.shared p) (c.routineBody (.shared p)) := by
  rw [sharedRoutine, if_pos (List.mem_filter.mp h).2]
  rfl

/-- The functions of a state compile if all its routines do. -/
theorem fault_stateRoutines :
    (c.stateRoutines v).fault = none ↔ ∀ r ∈ c.routinesOf v, (c.routineBody r).fault = none := by
  have hshared : (∀ p ∈ c.plan.sharedIn c.machine v, (c.sharedRoutine p).fault = none) ↔
      ∀ p ∈ c.plan.sharedIn c.machine v, (c.routineBody (.shared p)).fault = none :=
    forall₂_congr fun p hp => by rw [sharedRoutine_eq hp, fault_routine]
  simp only [stateRoutines, fault_andThen, fault_emit, Option.none_or, Option.or_eq_none_iff,
    fault_each_eq_none, hshared, enterRoutine, exitRoutine, eventRoutine, fault_routine, routinesOf,
    List.cons_append, List.forall_mem_cons, List.forall_mem_append, List.forall_mem_map]
  simp only [routineBody, fault_andThen, fault_emit, Option.none_or, Option.or_eq_none_iff]

/-- The title above the functions of a state. -/
def title (c : Compiler) (v : Nat) : List Stmt :=
  [.gap, banner, .comment ("event handlers for state " ++ c.machine.describe v), banner, .gap]

/-- The functions of a state stand below its title in the order of its routines. -/
theorem code_stateRoutines (h : (c.stateRoutines v).fault = none) :
    (c.stateRoutines v).code = c.title v ++ (c.routinesOf v).flatMap c.routineCode := by
  rw [fault_stateRoutines] at h
  simp only [routinesOf, List.cons_append, List.forall_mem_cons, List.forall_mem_append,
    List.forall_mem_map] at h
  obtain ⟨henter, hexit, hevents, hshared⟩ := h
  have hevent : ∀ e ∈ c.machine.eventsOf v, (c.eventRoutine v e).fault = none := fun e he => by
    rw [eventRoutine, fault_routine]
    exact hevents e he
  have hproceed : ∀ p ∈ c.plan.sharedIn c.machine v, (c.sharedRoutine p).fault = none :=
    fun p hp => by
    rw [sharedRoutine_eq hp, fault_routine]
    exact hshared p hp
  have hcode : (each (c.machine.eventsOf v) (c.eventRoutine v)).code =
      ((c.machine.eventsOf v).map (.event v)).flatMap c.routineCode := by
    rw [code_each hevent, List.flatMap_map]
    exact List.flatMap_congr fun e he => code_routine (r := .event v e) (hevents e he)
  have hcodeShared : (each (c.plan.sharedIn c.machine v) c.sharedRoutine).code =
      ((c.plan.sharedIn c.machine v).map .shared).flatMap c.routineCode := by
    rw [code_each hproceed, List.flatMap_map]
    exact List.flatMap_congr fun p hp => by rw [sharedRoutine_eq hp, code_routine (hshared p hp)]
  have hcodeEnter : (c.enterRoutine v).code = c.routineCode (.enter v) := code_routine henter
  have hcodeExit : (c.exitRoutine v).code = c.routineCode (.exit v) := code_routine hexit
  have hfaultEnter : (c.enterRoutine v).fault = none := (fault_routine _ _).trans henter
  have hfaultExit : (c.exitRoutine v).fault = none := (fault_routine _ _).trans hexit
  rw [stateRoutines, code_andThen (by simp), code_andThen hfaultEnter, code_andThen hfaultExit,
    code_andThen (fault_each_eq_none.mpr hevent), hcode, hcodeShared, hcodeEnter, hcodeExit]
  simp [title, routinesOf, List.flatMap_append]

/-- The functions of the machine compile if the start function and all routines do. -/
theorem fault_functions :
    (c.functions config).fault = none ↔
      c.start.fault = none ∧ ∀ r ∈ c.routines, (c.routineBody r).fault = none := by
  simp only [functions, fault_andThen, fault_emit, fault_block, Option.none_or, Option.or_none,
    Option.or_eq_none_iff, fault_each_eq_none, fault_stateRoutines, routines,
    List.forall_mem_flatMap]

/-- Nothing but the functions of a file can have a fault. -/
theorem fault_file (c : Compiler) (config : Config) (vars : List AutoVar) :
    (c.file config vars).fault = (c.functions config).fault := by
  rw [file, fault_andThen, fault_emit, Option.none_or, fault_block]

/-- A fault of the functions of a state is a fault of one of its routines. -/
theorem exists_of_fault_stateRoutines {fault : Fault} (h : (c.stateRoutines v).fault = some fault) :
    ∃ r ∈ c.routinesOf v, (c.routineBody r).fault = some fault := by
  simp only [stateRoutines, fault_andThen, fault_emit, Option.none_or, Option.or_eq_some_iff] at h
  rcases h with h | ⟨-, h | ⟨-, h | ⟨-, h⟩⟩⟩
  · exact ⟨.enter v, by simp [routinesOf], (fault_routine _ _).symm.trans h⟩
  · exact ⟨.exit v, by simp [routinesOf], (fault_routine _ _).symm.trans h⟩
  · obtain ⟨event, hevent, h⟩ := exists_of_fault_each h
    exact ⟨.event v event, by simp [routinesOf, hevent], (fault_routine _ _).symm.trans h⟩
  · obtain ⟨p, hp, h⟩ := exists_of_fault_each h
    rw [sharedRoutine_eq hp, fault_routine] at h
    exact ⟨.shared p, by simp [routinesOf, hp], h⟩

/-- A fault of the functions of the machine is one of the start function or of a routine. -/
theorem exists_of_fault_functions {fault : Fault} (h : (c.functions config).fault = some fault) :
    c.start.fault = some fault ∨ ∃ r ∈ c.routines, (c.routineBody r).fault = some fault := by
  simp only [functions, fault_andThen, fault_emit, fault_block, Option.none_or, Option.or_none,
    Option.or_eq_some_iff] at h
  rcases h with h | ⟨-, h⟩
  · exact .inl h
  · obtain ⟨v, hv, h⟩ := exists_of_fault_each h
    obtain ⟨r, hr, h⟩ := exists_of_fault_stateRoutines h
    exact .inr ⟨r, List.mem_flatMap.mpr ⟨v, hv, hr⟩, h⟩

/-- No fixed part of the functions is the function of a routine. -/
theorem routine_not_mem_fixed (m : Machine) (config : Config) (this : String) (r : Routine)
    (body : List Stmt) (closed : Bool) :
    .block (.routine r) body closed ∉ m.constructor config ∧
      .block (.routine r) body closed ∉ m.dispatcher this ∧
      .block (.routine r) body closed ∉ m.exitLoop ∧
      .block (.routine r) body closed ∉ m.handlerCalls this ∧
      .block (.routine r) body closed ∉ m.nameFunctions := by
  simp [Machine.constructor, Machine.dispatcher, Machine.exitLoop, Machine.handlerCalls,
    Machine.nameFunctions, Machine.nameFunction, item]

/-- The code of the function for one routine is the function of no other. -/
theorem mem_routineCode {r' : Routine} {body : List Stmt} {closed : Bool} :
    .block (.routine r) body closed ∈ c.routineCode r' ↔
      r = r' ∧ body = (c.routineBody r).code ∧ closed = true := by
  simp only [routineCode, List.mem_cons, Stmt.block.injEq, Head.routine.injEq, reduceCtorEq,
    List.not_mem_nil, or_false]
  constructor
  · rintro ⟨rfl, hbody, hclosed⟩
    exact ⟨rfl, hbody, hclosed⟩
  · rintro ⟨rfl, hbody, hclosed⟩
    exact ⟨rfl, hbody, hclosed⟩

/-- The functions of the machine hold one function for each routine and no other. -/
theorem mem_code_functions (h : (c.functions config).fault = none) {body : List Stmt}
    {closed : Bool} :
    .block (.routine r) body closed ∈ (c.functions config).code ↔
      r ∈ c.routines ∧ body = (c.routineBody r).code ∧ closed = true := by
  obtain ⟨hstart, hroutines⟩ := fault_functions.mp h
  have hstates : ∀ v ∈ c.machine.states, (c.stateRoutines v).fault = none := fun v hv =>
    fault_stateRoutines.mpr fun r hr => hroutines r (List.mem_flatMap.mpr ⟨v, hv, hr⟩)
  obtain ⟨hconstructor, hdispatcher, hloop, hcalls, hnames⟩ :=
    routine_not_mem_fixed c.machine config c.ctx.machine r body closed
  have htitle (v : Nat) : .block (.routine r) body closed ∉ c.title v := by simp [title, banner]
  have hcode : .block (.routine r) body closed ∈
    c.machine.states.flatMap (fun v => (c.stateRoutines v).code) ↔
      r ∈ c.routines ∧ body = (c.routineBody r).code ∧ closed = true := by
    rw [List.flatMap_congr fun v hv => code_stateRoutines (hstates v hv)]
    simp only [List.mem_flatMap, List.mem_append, htitle, false_or, mem_routineCode, routines]
    constructor
    · rintro ⟨v, hv, r', hr', rfl, hrest⟩
      exact ⟨⟨v, hv, hr'⟩, hrest⟩
    · rintro ⟨⟨v, hv, hr⟩, hrest⟩
      exact ⟨v, hv, r, hr, rfl, hrest⟩
  rw [functions, code_andThen (by simp), code_andThen (by simp [hstart]), code_block hstart,
    code_andThen (by simp), code_andThen (fault_each_eq_none.mpr hstates),
    code_each hstates, ← hcode]
  simp [hconstructor, hdispatcher, hloop, hcalls, hnames]

end Compiler

/-- A result that is not an error is a value. -/
theorem exists_eq_ok {ε α : Type} {result : Except ε α} (h : result.toOption.isSome) :
    ∃ a, result = .ok a := by
  cases result with
  | error e => cases h
  | ok a => exact ⟨a, rfl⟩

/-- What the handlers of a machine are compiled with. -/
def Machine.compiler (m : Machine) (expander : Snippet.Expander) (ctx : Context) : Compiler :=
  ⟨m, m.plan, expander, ctx⟩

section Generating

variable {m : Machine} {config : Config} {expander : Snippet.Expander} {ctx : Context}

/-- A file that is generated is the text of a draft. -/
theorem Machine.render_of_generateWith {text : String}
    (h : m.generateWith config expander ctx = .ok text) :
    ∃ vars, config.autoVars = .ok vars ∧
      ((m.compiler expander ctx).file config vars).render m ctx config.style = .ok text := by
  rw [generateWith] at h
  split at h
  · cases h
  · dsimp only at h
    split at h
    · cases h
    · next vars hvars => exact ⟨vars, hvars, h⟩

/-- A file is generated only if all its functions compile. -/
theorem Machine.fault_functions_of_generateWith {text : String}
    (h : m.generateWith config expander ctx = .ok text) :
    ((m.compiler expander ctx).functions config).fault = none := by
  obtain ⟨vars, -, hrender⟩ := render_of_generateWith h
  rw [Draft.render] at hrender
  split at hrender
  · cases hrender
  · cases hrender
  · next hfault => rwa [Compiler.fault_file] at hfault

/-- Where the variables cannot be read, they are what the file is refused for, or the texts in front
of them. -/
theorem Compiler.refusal_cases (c : Compiler) (config : Config) (page : Page) (e : AutoVarError) :
    c.refusal config page e = .unevenIndent ∨ c.refusal config page e = .autoVar e := by
  rw [refusal]
  split
  · exact .inl rfl
  · exact .inr rfl

/-- Once validation is past, a file is refused for a collision of names, for code that cannot be
freed of its indentation, for a variable that cannot be read, or for a fault of its functions. -/
theorem Machine.generateWith_error_cases {e : CompileError}
    (h : m.generateWith config expander ctx = .error e) :
    (∃ c, e = .collision c) ∨ e = .unevenIndent ∨ (∃ x, e = .autoVar x) ∨
      ∃ fault, e = .fault fault ∧
        ((m.compiler expander ctx).functions config).fault = some fault := by
  rw [generateWith] at h
  split at h
  · next c _ => exact .inl ⟨c, (Except.error.inj h).symm⟩
  · dsimp only at h
    split at h
    · next x _ =>
      obtain rfl := Except.error.inj h
      rcases Compiler.refusal_cases _ config { style := config.style } x with heq | heq
      · exact .inr (.inl heq)
      · exact .inr (.inr (.inl ⟨x, heq⟩))
    · rw [Draft.render] at h
      split at h
      · exact .inr (.inl (Except.error.inj h).symm)
      · next fault _ hfault =>
        rw [Compiler.fault_file] at hfault
        exact .inr (.inr (.inr ⟨fault, (Except.error.inj h).symm, hfault⟩))
      · cases h

/-- A file is refused for a fault only if one of its functions has that fault. -/
theorem Machine.fault_functions_of_generateWith_error {fault : Fault}
    (h : m.generateWith config expander ctx = .error (.fault fault)) :
    ((m.compiler expander ctx).functions config).fault = some fault := by
  rcases generateWith_error_cases h with ⟨c, hc⟩ | hindent | ⟨x, hx⟩ | ⟨other, hother, hfault⟩
  · cases hc
  · cases hindent
  · cases hx
  · rwa [CompileError.fault.inj hother]

end Generating

end Statechart
