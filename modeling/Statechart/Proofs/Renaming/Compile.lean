import Statechart.Compile.File
import Statechart.Proofs.Renaming.Code
import Statechart.Proofs.Routines

/-!
# Compiling under other numbers

Each piece of a handler is compiled to the same code in machines that differ in numbers only, with
the numbers of the one in place of those of the other. Hence the files are the same, or the same
fault is reported.
-/

namespace Statechart

open Draft

variable {f : Nat → Nat}

/-- What handlers are compiled with is the same, with `f v` for `v`. -/
structure Compiler.Renaming (c c' : Compiler) (f : Nat → Nat) : Prop where
  machine : c.machine.Renaming c'.machine f
  isShared : ∀ p, c'.plan.isShared (f p) = c.plan.isShared p
  expander : c'.expander = c.expander
  ctx : c'.ctx = c.ctx

/-- Machines that differ in numbers are compiled with the same. -/
theorem Machine.Renaming.compiler {m m' : Machine} (h : m.Renaming m' f)
    (expander : Snippet.Expander) (ctx : Context) :
    (m.compiler expander ctx).Renaming (m'.compiler expander ctx) f :=
  ⟨h, h.isShared, rfl, rfl⟩

namespace Compiler.Renaming

variable {c c' : Compiler} (h : c.Renaming c' f)
include h

/-- Code is expanded alike. -/
theorem expand (b : Behavior) (code : String) :
    c'.expand (b.rename f) code = (c.expand b code).mapError (Fault.rename f) := by
  rw [Compiler.expand, Compiler.expand, h.expander, h.ctx]
  cases c.expander.expand c.ctx code <;> rfl

/-- Guards are expanded alike. -/
theorem guardOf (b : Behavior) :
    c'.guardOf (b.rename f) = (c.guardOf b).mapError (Fault.rename f) := by
  simp only [Compiler.guardOf, Behavior.hasGuard_rename, Behavior.guard_rename, h.expand]
  split
  · cases c.expand b (Text.trim (b.guard.getD "")) <;> rfl
  · rfl

/-- Blocks of behaviors are compiled alike if their bodies are. -/
theorem behaviorBlock (b : Behavior) {body body' : Unit → Draft}
    (hbody : body' () = (body ()).rename f) :
    c'.behaviorBlock (b.rename f) body' = (c.behaviorBlock b body).rename f := by
  simp only [Compiler.behaviorBlock, rename_andThen, rename_emit, rename_given, rename_block,
    h.guardOf, h.machine.describe, h.machine.diagramLine, Behavior.owner_rename, hbody,
    List.map_cons, List.map_nil, Stmt.rename, Head.rename]

/-- Actions are compiled alike. -/
theorem action (b : Behavior) : c'.action (b.rename f) = (c.action b).rename f := by
  simp only [Compiler.action, Behavior.hasAction_rename, Behavior.action_rename, h.expand]
  split
  · simp only [rename_given, rename_emit, List.map_cons, List.map_nil, Stmt.rename]
  · rfl

omit h in
/-- Keeping an event from outer states names no vertex. -/
theorem map_release (quiet : Bool) : (release quiet).map (Stmt.rename f) = release quiet := by
  cases quiet <;> rfl

/-- Calls that enter a state are the same. -/
theorem enterCall (quiet : Bool) (v : Nat) :
    c'.enterCall quiet (f v) = (c.enterCall quiet v).map (Stmt.rename f) := by
  have hmoves : c'.movesOnEnter (f v) = c.movesOnEnter v := by
    rw [movesOnEnter, h.machine.behaviorsOn, List.any_map, movesOnEnter]
    exact congrArg _ (funext fun b => Behavior.hasTransition_rename f b)
  rw [Compiler.enterCall, Compiler.enterCall, hmoves, h.machine.describe]
  split
  · simp only [List.map_cons, List.map_nil, Stmt.rename, Head.rename, Stmt.renameAll_eq_map,
      List.cons_append, List.map_append, map_release]
  · rfl

/-- States are left alike. -/
theorem leave (source : Nat) (path : Path) :
    c'.leave (f source) (path.rename f) = (c.leave source path).rename f := by
  simp only [Compiler.leave, h.machine.directExit]
  cases c.machine.directExit source path with
  | error invariant => rfl
  | ok result =>
    obtain ⟨direct, v⟩ := result
    cases direct with
    | true => rfl
    | false =>
      simp only [Except.map, Prod.map, id, Path.rename, h.machine.kind]
      split <;> rfl

/-- States are entered alike. -/
theorem enterTowards (quiet : Bool) (path : Path) :
    c'.enterTowards quiet (path.rename f) = (c.enterTowards quiet path).map (Stmt.rename f) := by
  simp only [Compiler.enterTowards, Path.rename, List.isEmpty_map, List.flatMap_map, h.machine.kind,
    h.enterCall, h.machine.describe]
  split
  · rfl
  · rw [List.map_append, List.map_flatMap]
    congr 1
    refine List.flatMap_congr fun v _ => ?_
    split <;> rfl

/-- Transitions are concluded alike if pseudo-states are compiled alike in place. -/
theorem conclude {inline inline' : Nat → Draft} (hinline : ∀ p, inline' (f p) = (inline p).rename f)
    (quiet : Bool) (t : Nat) :
    c'.conclude inline' quiet (f t) = (c.conclude inline quiet t).rename f := by
  simp only [Compiler.conclude, h.machine.completion]
  cases c.machine.completion t with
  | none =>
    simp only [Option.map_none, completed, rename_emit, List.map_append, map_release, List.map_cons,
      List.map_nil, Stmt.rename]
  | some p =>
    simp only [Option.map_some, h.isShared, hinline]
    split <;> rfl

/-- Transitions depart alike. -/
theorem departure (check : Bool) (s t : Nat) :
    c'.departure check (f s) (f t) = (c.departure check s t).rename f := by
  simp only [Compiler.departure, h.machine.tree'.hasPath, h.machine.tree.hasPath, if_true,
    h.machine.path, h.machine.exitRequired, h.leave]
  rw [Path.rename, h.machine.describe]
  split
  · rw [rename_andThen]
    rfl
  · rfl

/-- The steps of transitions are the same if pseudo-states are compiled alike in place. -/
theorem transitionSteps {inline inline' : Nat → Draft}
    (hinline : ∀ p, inline' (f p) = (inline p).rename f) (quiet check : Bool) (b : Behavior)
    (t : Nat) :
    c'.transitionSteps inline' quiet check (b.rename f) (f t) =
      (c.transitionSteps inline quiet check b t).rename f := by
  simp only [Compiler.transitionSteps, Behavior.owner_rename, Behavior.actionLine_rename,
    h.departure, h.action, h.machine.path, h.machine.describe, h.enterTowards, h.conclude hinline,
    rename_andThen, rename_emit, List.map_cons, List.map_nil, Stmt.rename]

/-- Transitions are compiled alike if pseudo-states are compiled alike in place. -/
theorem transitionWith {inline inline' : Nat → Draft}
    (hinline : ∀ p, inline' (f p) = (inline p).rename f) (quiet check : Bool) (b : Behavior) :
    c'.transitionWith inline' quiet check (b.rename f) =
      (c.transitionWith inline quiet check b).rename f := by
  simp only [Compiler.transitionWith, Behavior.target_rename]
  cases b.target with
  | none => rfl
  | some t =>
    simp only [Option.map_some]
    exact h.behaviorBlock b (h.transitionSteps hinline quiet check b t)

/-- Pseudo-states are compiled alike in place, at any level. -/
theorem inline (quiet : Bool) (levels p : Nat) :
    c'.inline quiet levels (f p) = (c.inline quiet levels p).rename f := by
  induction levels generalizing p with
  | zero => rfl
  | succ levels ih =>
    have hbody : each ((c'.machine.behaviorsOf (f p)).filter (·.hasTransition)) (fun b =>
          c'.transitionWith (c'.inline quiet levels) quiet true b >> emit [.gap]) =
        (each ((c.machine.behaviorsOf p).filter (·.hasTransition)) fun b =>
          c.transitionWith (c.inline quiet levels) quiet true b >> emit [.gap]).rename f := by
      have hleads : ((·.hasTransition) ∘ Behavior.rename f) = (·.hasTransition) :=
        funext fun b => Behavior.hasTransition_rename f b
      rw [h.machine.behaviorsOf, List.filter_map, each_map, rename_each, hleads]
      refine each_congr fun b _ => ?_
      rw [h.transitionWith ih, rename_andThen]
      rfl
    rw [Compiler.inline, Compiler.inline, hbody]
    simp only [Draft.rename, List.map_cons, List.map_nil, Stmt.rename, Stmt.renameAll_eq_map]

/-- As many levels of pseudo-states are left at a depth in both machines. -/
theorem levelsAt (depth : Nat) : c'.levelsAt depth = c.levelsAt depth := by
  have hsize : c'.machine.size = c.machine.size := by
    have hlength := h.machine.ids.length_eq
    rwa [List.length_map, Machine.ids, Machine.ids, List.length_range, List.length_range] at hlength
  rw [Compiler.levelsAt, hsize, Compiler.levelsAt]

/-- Transitions are compiled alike. -/
theorem transition (quiet check : Bool) (depth : Nat) (b : Behavior) :
    c'.transition quiet check depth (b.rename f) = (c.transition quiet check depth b).rename f := by
  rw [Compiler.transition, h.levelsAt, Compiler.transition]
  exact h.transitionWith (h.inline quiet _) quiet check b

/-- Actions use the flag alike. -/
theorem usesFlag (b : Behavior) :
    c'.usesFlag (b.rename f) = (c.usesFlag b).mapError (Fault.rename f) := by
  simp only [Compiler.usesFlag, Behavior.hasAction_rename, Behavior.action_rename, h.expand]
  split
  · cases c.expand b (b.action.getD "") <;> rfl
  · rfl

/-- Behaviors without a transition are compiled alike. -/
theorem reaction (trigger : String) (quiet : Bool) (b : Behavior) :
    c'.reaction trigger quiet (b.rename f) = (c.reaction trigger quiet b).rename f := by
  have hflag : (if Trigger.isEvent trigger then c'.usesFlag (b.rename f) else .ok false) =
      (if Trigger.isEvent trigger then c.usesFlag b else .ok false).mapError (Fault.rename f) := by
    split
    · exact h.usesFlag b
    · rfl
  have hdeclare : (declareFlag trigger quiet).map (Stmt.rename f) = declareFlag trigger quiet := by
    cases quiet <;> rfl
  have hconsume (flagged : Bool) :
      (consume trigger quiet flagged).map (Stmt.rename f) = consume trigger quiet flagged := by
    cases quiet <;> cases flagged <;>
      simp only [consume, Bool.false_eq_true, if_false, if_true, List.map_cons, List.map_nil] <;>
      first | rfl | (split <;> rfl)
  simp only [Compiler.reaction, hflag, rename_given]
  congr 1
  funext flagged
  refine h.behaviorBlock b ?_
  simp only [rename_andThen, rename_emit, h.action, Behavior.actionLine_rename, List.map_append,
    apply_ite (List.map (Stmt.rename f)), hdeclare, hconsume, List.map_cons, List.map_nil,
    Stmt.rename]

/-- The behaviors of a state on a trigger are compiled alike. -/
theorem behaviorsFor (v : Nat) (trigger : String) :
    c'.behaviorsFor (f v) trigger = (c.behaviorsFor v trigger).rename f := by
  have hnext : (if Trigger.isEvent trigger then c'.machine.nextHandler (f v) trigger else none) =
      (if Trigger.isEvent trigger then c.machine.nextHandler v trigger else none).map f := by
    split
    · exact h.machine.nextHandler v trigger
    · rfl
  have hover (next : Option Nat) :
      handOver (next.map f) trigger = (handOver next trigger).map (Stmt.rename f) := by
    cases next <;> rfl
  simp only [Compiler.behaviorsFor, hnext, hover, Option.isNone_map, rename_andThen, rename_emit,
    apply_ite (List.map (Stmt.rename f)), List.map_nil, h.machine.behaviorsOn, each_map,
    rename_each]
  congr 1
  funext
  refine each_congr fun b _ => ?_
  rw [Behavior.hasTransition_rename, h.transition, h.reaction]
  split <;> rfl

/-- The bodies of functions are compiled alike. -/
theorem routineBody (r : Routine) : c'.routineBody (r.rename f) = (c.routineBody r).rename f := by
  cases r with
  | enter v =>
    simp only [Routine.rename, Compiler.routineBody, takeOver, h.behaviorsFor, h.machine.eventsOf,
      rename_andThen, rename_emit, List.map_append, List.map_cons, List.map_nil, List.map_map,
      Stmt.rename]
    rfl
  | exit v =>
    have hback : c'.handBack (f v) = (c.handBack v).rename f := by
      simp only [handBack, h.machine.holder]
      cases c.machine.holder v with
      | none => rfl
      | some p =>
        simp only [Option.map_some, h.machine.kind, h.machine.eventsOf, h.machine.nextHandler]
        split
        · simp only [rename_emit, List.map_append, List.map_cons, List.map_nil, List.map_map,
            Stmt.rename]
          rfl
        · rfl
    simp only [Routine.rename, Compiler.routineBody, h.behaviorsFor, hback, rename_andThen]
  | event v event => exact h.behaviorsFor v event
  | shared p => exact (congrArg (c'.inline false · (f p)) (h.levelsAt 0)).trans (h.inline false _ p)

/-- The functions of a state are compiled alike. -/
theorem stateRoutines (v : Nat) : c'.stateRoutines (f v) = (c.stateRoutines v).rename f := by
  have hroutine (r : Routine) (body : Draft) :
      (routine r body).rename f = routine (r.rename f) (body.rename f) := by
    simp only [routine, rename_andThen, rename_block, rename_emit, Head.rename, List.map_cons,
      List.map_nil, Stmt.rename]
  have henter : c'.enterRoutine (f v) = (c.enterRoutine v).rename f := by
    rw [enterRoutine, enterRoutine, hroutine]
    exact congrArg _ (h.routineBody (.enter v))
  have hexit : c'.exitRoutine (f v) = (c.exitRoutine v).rename f := by
    rw [exitRoutine, exitRoutine, hroutine]
    exact congrArg _ (h.routineBody (.exit v))
  have hevent : c'.eventRoutine (f v) = fun event => (c.eventRoutine v event).rename f := by
    funext event
    rw [eventRoutine, eventRoutine, hroutine]
    exact congrArg _ (h.routineBody (.event v event))
  have hshared (p : Nat) : c'.sharedRoutine (f p) = (c.sharedRoutine p).rename f := by
    rw [sharedRoutine, sharedRoutine, h.isShared]
    split
    · rw [hroutine]
      exact congrArg _ (h.routineBody (.shared p))
    · rfl
  have hsharedIn : c'.plan.sharedIn c'.machine (f v) = (c.plan.sharedIn c.machine v).map f := by
    have hpred : c'.plan.isShared ∘ f = c.plan.isShared := funext h.isShared
    rw [Plan.sharedIn, h.machine.pseudoChildren, List.filter_map, hpred, Plan.sharedIn]
  simp only [Compiler.stateRoutines, h.machine.describe, h.machine.eventsOf, hsharedIn, each_map,
    henter, hexit, hevent, hshared, rename_andThen, rename_emit, rename_each, banner, List.map_cons,
    List.map_nil, Stmt.rename]

/-- The start function is compiled alike. -/
theorem start : c'.start = c.start.rename f := by
  have hroot := h.machine.root
  have henter := h.enterCall true Machine.root
  have hinitial := h.machine.initialOf Machine.root
  rw [hroot] at henter hinitial
  have htransition : c'.startTransition = c.startTransition.rename f := by
    rw [startTransition, startTransition, hinitial]
    cases c.machine.initialOf Machine.root with
    | none => rfl
    | some i =>
      have hstart := h.transition true false 0 { owner := Machine.root, target := some i }
      rwa [Behavior.rename, hroot] at hstart
  rw [Compiler.start, henter, htransition, Compiler.start, rename_andThen, rename_emit]

end Compiler.Renaming

namespace Machine

variable {m m' : Machine}

/-- Numbered members name no vertex. -/
theorem map_numbered (first : Nat) (names : List (String × String)) :
    (numbered first names).map (Stmt.rename f) = numbered first names := by
  induction names generalizing first with
  | nil => rfl
  | cons name rest ih =>
    obtain ⟨name, note⟩ := name
    rw [numbered, List.map_cons, ih, Stmt.rename]

/-- Blocks with a fixed text in front name no vertex but in their bodies. -/
theorem map_item (head : String) (body : List Stmt) :
    (item head body).map (Stmt.rename f) = item head (body.map (Stmt.rename f)) := by
  simp only [item, List.map_cons, List.map_nil, Stmt.rename, Head.rename, Stmt.renameAll_eq_map]

/-- Lists of names give lines without vertices. -/
theorem map_lines {α : Type} (xs : List α) (text : α → String) :
    (xs.map fun x => Stmt.line (text x)).map (Stmt.rename f) = xs.map fun x =>
      Stmt.line (text x) := by
  rw [List.map_map]
  rfl

/-- The declarations of a machine name no vertex. -/
theorem map_declarations (c : Compiler) (config : Config) (vars : List AutoVar) :
    (c.declarations config vars).map (Stmt.rename f) = c.declarations config vars := by
  simp only [Compiler.declarations, eventDeclarations, stateDeclarations, varsDeclaration,
    handlerDeclarations, machineDeclaration, defaultDeclaration, countConstant, fileBanner,
    allowedLints, List.map_append, List.map_cons, List.map_nil, map_item, map_numbered, map_lines,
    apply_ite (List.map (Stmt.rename f)), Stmt.rename, Head.rename, Stmt.renameAll]

/-- The fixed functions of a machine name no vertex. -/
theorem map_fixedFunctions (m : Machine) (config : Config) (this : String) :
    (m.constructor config).map (Stmt.rename f) = m.constructor config ∧
      (m.dispatcher this).map (Stmt.rename f) = m.dispatcher this ∧
      m.exitLoop.map (Stmt.rename f) = m.exitLoop ∧
      (m.handlerCalls this).map (Stmt.rename f) = m.handlerCalls this ∧
      m.nameFunctions.map (Stmt.rename f) = m.nameFunctions := by
  refine ⟨?_, ?_, ?_, ?_, ?_⟩
  · simp only [Machine.constructor, List.map_cons, List.map_nil, List.map_append, map_item,
      Stmt.rename, Head.rename, Stmt.renameAll_eq_map, apply_ite (List.map (Stmt.rename f))]
  · simp only [dispatcher, List.map_cons, List.map_nil, map_item, Stmt.rename, Head.rename,
      Stmt.renameAll_eq_map]
  · simp only [exitLoop, exitLoopBlock, List.map_append, List.map_cons, List.map_nil, map_item,
      Stmt.rename, Head.rename, Stmt.renameAll_eq_map]
  · simp only [handlerCalls, List.map_cons, List.map_nil, map_item, Stmt.rename, Head.rename,
      Stmt.renameAll_eq_map, map_lines]
  · simp only [nameFunctions, nameFunction, List.map_cons, List.map_nil, Stmt.rename, Head.rename,
      Stmt.renameAll_eq_map, map_lines]

namespace Renaming

variable (h : m.Renaming m' f)
include h

/-- The members for states are the same. -/
theorem stateMember (v : Nat) : m'.stateMember (f v) = m.stateMember v := by
  rw [Machine.stateMember, h.stateName, Machine.stateMember]

/-- The references to handlers are the same. -/
theorem handlers : m'.handlers = m.handlers.map (Routine.rename f) := by
  rw [Machine.handlers, h.states, List.flatMap_map, Machine.handlers, List.map_flatMap]
  refine List.flatMap_congr fun v _ => ?_
  rw [h.eventsOf, List.map_cons, List.map_map]
  rfl

/-- The fixed functions are the same. -/
theorem fixedFunctions (config : Config) (this : String) :
    m'.constructor config = m.constructor config ∧ m'.dispatcher this = m.dispatcher this ∧
      m'.exitLoop = m.exitLoop ∧ m'.handlerCalls this = m.handlerCalls this ∧
      m'.nameFunctions = m.nameFunctions := by
  have hroot := h.stateMember Machine.root
  rw [h.root] at hroot
  refine ⟨?_, ?_, ?_, ?_, ?_⟩
  · simp only [Machine.constructor, stateEnum, eventCount, constantName, varsType,
      h.typeName, hroot]
  · simp only [dispatcher, eventEnum, h.typeName]
  · simp only [exitLoop, handlerEnum, h.typeName]
  · simp only [handlerCalls, handlerEnum, routineVariant, h.typeName, h.handlers, List.map_map,
      Function.comp_def, h.routineName]
  · simp only [nameFunctions, stateEnum, eventEnum, h.typeName, h.states, h.events, List.map_map,
      Function.comp_def, h.stateMember, h.describe]

end Renaming

end Machine

namespace Compiler.Renaming

variable {c c' : Compiler} (h : c.Renaming c' f)
include h

/-- The declarations are the same. -/
theorem declarations (config : Config) (vars : List AutoVar) :
    c'.declarations config vars = c.declarations config vars := by
  simp only [Compiler.declarations, Machine.eventDeclarations, Machine.stateDeclarations,
    Machine.varsDeclaration, Machine.handlerDeclarations, Machine.machineDeclaration,
    Machine.defaultDeclaration, Machine.eventEnum, Machine.stateEnum, Machine.handlerEnum,
    Machine.varsType, Machine.eventCount, Machine.stateCount, Machine.constantName,
    Machine.routineVariant, h.machine.typeName, h.machine.events, h.machine.states,
    h.machine.handlers, List.map_map, List.length_map, Function.comp_def, h.machine.stateMember,
    h.machine.routineName]

/-- The functions of the machine are compiled alike. -/
theorem functions (config : Config) : c'.functions config = (c.functions config).rename f := by
  obtain ⟨hconstructor, hdispatcher, hloop, hcalls, hnames⟩ :=
    h.machine.fixedFunctions config c.ctx.machine
  obtain ⟨hconstructor', hdispatcher', hloop', hcalls', hnames'⟩ :=
    Machine.map_fixedFunctions (f := f) c.machine config c.ctx.machine
  simp only [Compiler.functions, h.ctx, hconstructor, hdispatcher, hloop, hcalls, hnames, h.start,
    h.machine.states, each_map, h.stateRoutines, rename_andThen, rename_emit, rename_block,
    rename_each, Head.rename, List.map_append, List.map_cons, List.map_nil, Stmt.rename,
    hconstructor', hdispatcher', hloop', hcalls', hnames']

/-- The whole file is compiled alike. -/
theorem file (config : Config) (vars : List AutoVar) :
    c'.file config vars = (c.file config vars).rename f := by
  simp only [Compiler.file, h.declarations, h.functions, h.machine.typeName, rename_andThen,
    rename_emit, rename_block, Head.rename, Machine.map_declarations]

end Compiler.Renaming

/-- A compile error with other numbers for vertices. -/
def CompileError.rename (f : Nat → Nat) : CompileError → CompileError
  | invalid problems => invalid (problems.map (Problem.rename f))
  | fault error => fault (error.rename f)
  | autoVar error => autoVar error
  | collision c => collision c
  | unevenIndent => unevenIndent

namespace Machine.Renaming

variable {m m' : Machine} (h : m.Renaming m' f)
include h

/-- Drafts under other numbers have the same text. -/
theorem render (ctx : Context) (style : Style) (draft : Draft) :
    (draft.rename f).render m' ctx style =
      (draft.render m ctx style).mapError (CompileError.rename f) := by
  have hwrite : Stmt.writeAll m' ctx.machine { style := style } (draft.rename f).code =
      Stmt.writeAll m ctx.machine { style := style } draft.code := by
    rw [Draft.rename, ← Stmt.renameAll_eq_map]
    exact Stmt.writeAll_rename h _ _
  rw [Draft.render, hwrite, Draft.render]
  cases Stmt.writeAll m ctx.machine { style := style } draft.code with
  | none => rfl
  | some page =>
    simp only [Draft.rename]
    cases draft.fault <;> rfl

/-- Where the variables cannot be read, the same is reported for both machines. -/
theorem refusal (config : Config) (expander : Snippet.Expander) (ctx : Context) (page : Page)
    (e : AutoVarError) :
    (m'.compiler expander ctx).refusal config page e =
      ((m.compiler expander ctx).refusal config page e).rename f := by
  have hrenamed : Stmt.writeAll m' ctx.machine page
        (Stmt.renameAll f ((m.compiler expander ctx).declarations config [])) =
      Stmt.writeAll m ctx.machine page ((m.compiler expander ctx).declarations config []) :=
    Stmt.writeAll_rename h page _
  have hwrite :
      Stmt.writeAll m' ctx.machine page ((m'.compiler expander ctx).declarations config []) =
      Stmt.writeAll m ctx.machine page ((m.compiler expander ctx).declarations config []) := by
    rw [(h.compiler expander ctx).declarations, ← hrenamed, Stmt.renameAll_eq_map,
      Machine.map_declarations]
  simp only [Compiler.refusal, Machine.compiler] at hwrite ⊢
  rw [hwrite]
  split <;> rfl

/-- The same file is generated for both machines, or the same error is reported. -/
theorem generateWith (config : Config) (expander : Snippet.Expander) (ctx : Context) :
    m'.generateWith config expander ctx =
      (m.generateWith config expander ctx).mapError (CompileError.rename f) := by
  rw [Machine.generateWith, Machine.generateWith, h.collision]
  cases m.collision with
  | some c => rfl
  | none =>
    cases config.autoVars with
    | error e =>
      exact congrArg Except.error (h.refusal config expander ctx { style := config.style } e)
    | ok vars =>
      have hfile := (h.compiler expander ctx).file config vars
      exact (congrArg (Draft.render m' ctx config.style) hfile).trans (h.render ctx config.style _)

end Machine.Renaming

end Statechart
