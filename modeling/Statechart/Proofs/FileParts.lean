import Statechart.Proofs.Parts
import Statechart.Proofs.Routines

/-!
# The parts of a file

Some parts of a file are the same whatever its states do: declarations, and the functions that every
machine has. They are lines, comments, code of the user and closed blocks around these. All other
parts of a file are those of its start function and of the functions of its routines, one after the
other.
-/

namespace Statechart

/-- Whether the statement may stand in a part of a file that does not depend on behaviors. -/
@[simp] def Stmt.isFixed : Stmt → Bool
  | .line _ | .comment _ | .userCode _ | .gap | .callExit | .stopLoop => true
  | .block (.text _) _ closed | .block .whileExit _ closed | .block .exitReached _ closed => closed
  | _ => false

/-- Code with nothing in it that depends on behaviors, at any depth. -/
def Fixed (code : List Stmt) : Prop := ∀ stmt ∈ Stmt.partsAll code, stmt.isFixed

open Stmt

namespace Fixed

variable {front code body : List Stmt} {head : Head}

/-- Code is fixed if each of its statements is. -/
theorem of_forall (h : ∀ stmt ∈ code, Fixed [stmt]) : Fixed code := by
  intro part hpart
  rw [partsAll_eq_flatMap, List.mem_flatMap] at hpart
  obtain ⟨stmt, hstmt, hpart⟩ := hpart
  exact h stmt hstmt part (by simpa using hpart)

/-- Code in two pieces is fixed if both are. -/
theorem append (hfront : Fixed front) (hcode : Fixed code) : Fixed (front ++ code) := by
  intro part hpart
  rw [partsAll_append, List.mem_append] at hpart
  exact hpart.elim (hfront part) (hcode part)

/-- Lines of fixed text are fixed. -/
theorem of_lines (h : ∀ stmt ∈ code, ∃ text, stmt = .line text) : Fixed code := by
  refine of_forall fun stmt hstmt => ?_
  obtain ⟨text, rfl⟩ := h stmt hstmt
  simp [Fixed, parts, isFixed]

/-- Numbered members are fixed. -/
theorem numbered (first : Nat) (members : List (String × String)) :
    Fixed (numbered first members) := by
  induction members generalizing first with
  | nil => simp [Fixed, Statechart.numbered]
  | cons member rest ih =>
    rw [Statechart.numbered, ← List.singleton_append]
    exact append (by simp [Fixed, parts, isFixed]) (ih (first + 1))

/-- A closed block with a fixed front is fixed if its body is. -/
theorem block (hhead : (Stmt.block head body true).isFixed) (h : Fixed body) :
    Fixed [.block head body true] := by
  intro part hpart
  rw [partsAll_cons, parts_block, partsAll_nil, List.append_nil, List.mem_cons] at hpart
  rcases hpart with rfl | hpart
  · exact hhead
  · exact h part hpart

/-- A block with a fixed text in front is fixed if its body is. -/
theorem item (text : String) (h : Fixed body) : Fixed (item text body) :=
  append (block rfl h) (by simp [Fixed, parts, isFixed])

/-- What is kept only of other statements is not kept of fixed code. -/
theorem filter_parts {keep : Stmt → Bool} (h : Fixed code)
    (hkeep : ∀ stmt, stmt.isFixed → keep stmt = false) :
    (partsAll code).filter keep = [] := by
  rw [List.filter_eq_nil_iff]
  intro stmt hstmt
  simp [hkeep stmt (h stmt hstmt)]

end Fixed

namespace Machine

variable (m : Machine) (config : Config) (this : String)

/-- The function that makes a machine is fixed. -/
theorem fixed_constructor : Fixed (m.constructor config) := by
  unfold constructor Statechart.item
  cases config.hasVars <;> simp [Fixed, parts, isFixed]

/-- The function that dispatches events is fixed. -/
theorem fixed_dispatcher : Fixed (m.dispatcher this) := by
  simp [Fixed, dispatcher, Statechart.item, parts, isFixed]

/-- The loop that leaves states is fixed. -/
theorem fixed_exitLoop : Fixed m.exitLoop := by
  simp [Fixed, exitLoop, exitLoopBlock, Statechart.item, parts, isFixed]

/-- The function that runs handlers is fixed. -/
theorem fixed_handlerCalls : Fixed (m.handlerCalls this) := by
  refine Fixed.item _ (Fixed.block rfl (Fixed.of_lines fun stmt hstmt => ?_))
  obtain ⟨r, -, rfl⟩ := List.mem_map.mp hstmt
  exact ⟨_, rfl⟩

/-- A function that gives names is fixed. -/
theorem fixed_nameFunction (function enum : String) (members : List (String × String)) :
    Fixed [nameFunction function enum members] := by
  refine Fixed.block rfl (Fixed.block rfl (Fixed.of_lines fun stmt hstmt => ?_))
  obtain ⟨member, -, rfl⟩ := List.mem_map.mp hstmt
  exact ⟨_, rfl⟩

/-- The functions that give the names of states and events are fixed. -/
theorem fixed_nameFunctions : Fixed m.nameFunctions := by
  refine Fixed.of_forall fun stmt hstmt => ?_
  simp only [nameFunctions, List.mem_cons, List.not_mem_nil, or_false] at hstmt
  rcases hstmt with rfl | rfl | rfl | rfl | rfl | rfl
  case inr.inr.inl => exact fixed_nameFunction _ _ _
  case inr.inr.inr.inr.inr => exact fixed_nameFunction _ _ _
  all_goals simp [Fixed, parts, isFixed]

/-- The declarations of the ids of events and states are fixed. -/
theorem fixed_idDeclarations : Fixed m.eventDeclarations ∧ Fixed m.stateDeclarations := by
  have hcount (name : String) (count : Nat) : Fixed (countConstant name count) := by
    simp [Fixed, countConstant, parts, isFixed]
  have hintro (first second : String) : Fixed [.line first, .line second] := by
    simp [Fixed, parts, isFixed]
  exact ⟨((hintro _ _).append (Fixed.item _ (Fixed.numbered 0 _))).append (hcount _ _),
    ((hintro _ _).append (Fixed.item _ (Fixed.numbered 0 _))).append (hcount _ _)⟩

/-- The declaration of the user's variables is fixed. -/
theorem fixed_varsDeclaration (vars : List AutoVar) : Fixed (m.varsDeclaration config vars) := by
  unfold varsDeclaration
  split
  · refine Fixed.append (by simp [Fixed, parts, isFixed]) (Fixed.item _ (Fixed.append ?_ ?_))
    · split <;> simp [Fixed, parts, isFixed]
    · refine Fixed.of_lines fun stmt hstmt => ?_
      obtain ⟨var, -, rfl⟩ := List.mem_map.mp hstmt
      exact ⟨_, rfl⟩
  · simp [Fixed]

/-- The declarations of the machine and of the references to its handlers are fixed. -/
theorem fixed_machineDeclarations :
    Fixed m.handlerDeclarations ∧ Fixed (m.machineDeclaration config) ∧
      Fixed m.defaultDeclaration := by
  refine ⟨?_, ?_, ?_⟩
  · refine Fixed.append (by simp [Fixed, parts, isFixed]) ?_
    refine Fixed.item _ (Fixed.of_lines fun stmt hstmt => ?_)
    obtain ⟨r, -, rfl⟩ := List.mem_map.mp hstmt
    exact ⟨_, rfl⟩
  · unfold machineDeclaration
    refine Fixed.append (by simp [Fixed, parts, isFixed]) (Fixed.item _ ?_)
    cases config.hasVars <;> simp [Fixed, parts, isFixed]
  · simp [Fixed, defaultDeclaration, Statechart.item, parts, isFixed]

end Machine

namespace Compiler

open Draft

variable {c : Compiler} {config : Config} {vars : List AutoVar}

/-- The declarations of a file are fixed. -/
theorem fixed_declarations (c : Compiler) (config : Config) (vars : List AutoVar) :
    Fixed (c.declarations config vars) := by
  obtain ⟨hevents, hstates⟩ := c.machine.fixed_idDeclarations
  obtain ⟨hhandlers, hmachine, hdefault⟩ := c.machine.fixed_machineDeclarations config
  have hbanner : Fixed [fileBanner] := by simp [Fixed, fileBanner, parts, isFixed]
  have hlints : Fixed [allowedLints] := by simp [Fixed, allowedLints, parts, isFixed]
  have hgap : Fixed [.gap] := by simp [Fixed, parts, isFixed]
  have htop :
      Fixed (if Text.isBlank config.fileTop.toList then [] else [.userCode config.fileTop]) := by
    split <;> simp [Fixed, parts, isFixed]
  exact (((((((hbanner.append htop).append hgap).append hevents).append hstates).append
    (c.machine.fixed_varsDeclaration config vars)).append hhandlers).append hmachine).append
      hdefault
      |>.append hlints

/-- The title above the functions of a state is fixed. -/
theorem fixed_title (c : Compiler) (v : Nat) : Fixed (c.title v) := by
  simp [Fixed, title, banner, parts, isFixed]

/-- The functions of a state have the parts of its routines. -/
theorem filter_parts_stateRoutines {keep : Stmt → Bool}
    (hkeep : ∀ stmt, stmt.isFixed → keep stmt = false) {v : Nat}
    (hfault : (c.stateRoutines v).fault = none) :
    (partsAll (c.stateRoutines v).code).filter keep =
      (c.routinesOf v).flatMap fun r => (partsAll (c.routineCode r)).filter keep := by
  rw [code_stateRoutines hfault, partsAll_append, List.filter_append,
    (c.fixed_title v).filter_parts hkeep, List.nil_append, partsAll_eq_flatMap, List.flatMap_assoc,
    List.filter_flatMap]
  exact List.flatMap_congr fun r _ => by rw [partsAll_eq_flatMap]

/-- The code of a file that compiled: declarations, and a block with the start function, the
functions that every machine has, and the functions of all states. -/
theorem code_file (hfault : (c.functions config).fault = none) :
    (c.file config vars).code = c.declarations config vars ++
      [.block (.text ("impl " ++ c.machine.typeName))
        ((c.machine.constructor config ++
            [.line ("/// Enter the root state and follow its initial transition. " ++
              "Call once before dispatching events.")]) ++
          ([.block (.text "pub fn start(&mut self)") c.start.code true] ++
            ((.gap :: c.machine.dispatcher c.ctx.machine ++ c.machine.exitLoop ++
                c.machine.handlerCalls c.ctx.machine) ++
              ((c.machine.states.flatMap fun v => (c.stateRoutines v).code) ++
                c.machine.nameFunctions)))) true] := by
  obtain ⟨hstart, hroutines⟩ := fault_functions.mp hfault
  have hstates : ∀ v ∈ c.machine.states, (c.stateRoutines v).fault = none := fun v hv =>
    fault_stateRoutines.mpr fun r hr => hroutines r (List.mem_flatMap.mpr ⟨v, hv, hr⟩)
  rw [file, code_andThen (fault_emit _), code_emit, code_block hfault]
  rw [functions, code_andThen (by simp), code_andThen (by simp [hstart]), code_block hstart,
    code_andThen (by simp), code_andThen (fault_each_eq_none.mpr hstates), code_each hstates]
  rfl

/-- What is kept only of statements that are not fixed comes from the start function and from the
routines in order. -/
theorem filter_parts_file {keep : Stmt → Bool} (hkeep : ∀ stmt, stmt.isFixed → keep stmt = false)
    (hfault : (c.functions config).fault = none) :
    (partsAll (c.file config vars).code).filter keep =
      (partsAll c.start.code).filter keep ++
        c.routines.flatMap fun r => (partsAll (c.routineCode r)).filter keep := by
  obtain ⟨hstart, hroutines⟩ := fault_functions.mp hfault
  have hstates : ∀ v ∈ c.machine.states, (c.stateRoutines v).fault = none := fun v hv =>
    fault_stateRoutines.mpr fun r hr => hroutines r (List.mem_flatMap.mpr ⟨v, hv, hr⟩)
  have hcode : (partsAll (c.machine.states.flatMap fun v => (c.stateRoutines v).code)).filter keep =
      c.routines.flatMap fun r => (partsAll (c.routineCode r)).filter keep := by
    rw [partsAll_eq_flatMap, List.flatMap_assoc, List.filter_flatMap, routines, List.flatMap_assoc]
    refine List.flatMap_congr fun v hv => ?_
    rw [← partsAll_eq_flatMap, filter_parts_stateRoutines hkeep (hstates v hv)]
  have hbefore (text : String) : Fixed (c.machine.constructor config ++ [.line text]) :=
    (c.machine.fixed_constructor config).append (by simp [Fixed, parts, isFixed])
  have hbetween : Fixed (.gap :: c.machine.dispatcher c.ctx.machine ++ c.machine.exitLoop ++
      c.machine.handlerCalls c.ctx.machine) := by
    have hgap : Fixed [.gap] := by simp [Fixed, parts, isFixed]
    exact ((hgap.append (c.machine.fixed_dispatcher _)).append c.machine.fixed_exitLoop).append
      (c.machine.fixed_handlerCalls _)
  have hblock (text : String) (body : List Stmt) :
      (partsAll [.block (.text text) body true]).filter keep = (partsAll body).filter keep := by
    simp [hkeep (.block (.text text) body true) rfl]
  rw [code_file hfault, partsAll_append, List.filter_append,
    (c.fixed_declarations config vars).filter_parts hkeep, List.nil_append, hblock]
  rw [partsAll_append, List.filter_append, (hbefore _).filter_parts hkeep,
    List.nil_append, partsAll_append, List.filter_append, hblock, partsAll_append,
    List.filter_append, hbetween.filter_parts hkeep, List.nil_append, partsAll_append,
    List.filter_append, hcode, c.machine.fixed_nameFunctions.filter_parts hkeep, List.append_nil]

/-- What is read only off statements that are not fixed comes from the start function and from the
routines in order. -/
theorem filterMap_parts_file {α : Type} {read : Stmt → Option α}
    (hread : ∀ stmt, stmt.isFixed → read stmt = none) (hfault : (c.functions config).fault = none) :
    (partsAll (c.file config vars).code).filterMap read =
      (partsAll c.start.code).filterMap read ++
        c.routines.flatMap fun r => (partsAll (c.routineCode r)).filterMap read := by
  have hkeep (stmt : Stmt) (h : stmt.isFixed) : (read stmt).isSome = false := by
    rw [hread stmt h, Option.isSome_none]
  have hsome (code : List Stmt) :
      code.filterMap read = (code.filter fun stmt => (read stmt).isSome).filterMap read := by
    rw [List.filterMap_filter]
    refine List.filterMap_congr fun stmt _ => ?_
    cases h : read stmt <;> simp
  rw [hsome, filter_parts_file hkeep hfault, List.filterMap_append, ← hsome, List.filterMap_flatMap]
  exact congrArg _ (List.flatMap_congr fun r _ => (hsome _).symm)

end Compiler

end Statechart
