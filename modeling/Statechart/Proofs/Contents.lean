import Statechart.Proofs.Emission
import Statechart.Proofs.FileParts

/-!
# The contents of a file

The blocks of a file that have a text of their own in front: its types, the functions that every
machine has, and what these hold. The functions of routines and the start function hold no such
block, so each of them is found in the one part of the file that is made for it.
-/

namespace Statechart

namespace Stmt

variable {front : String} {code : List Stmt}

/-- The text in front of a block, with its body. -/
@[simp] def titled? : Stmt → Option (String × List Stmt)
  | block (.text front) body _ => some (front, body)
  | _ => none

/-- The blocks with a text in front, at any depth. -/
def titled (code : List Stmt) : List (String × List Stmt) := (partsAll code).filterMap titled?

/-- The texts in front of blocks, at any depth. -/
def fronts (code : List Stmt) : List String := (titled code).map Prod.fst

/-- The bodies of blocks with the given text in front, at any depth. -/
def bodies (front : String) (code : List Stmt) : List (List Stmt) :=
  ((titled code).filter (·.1 == front)).map Prod.snd

/-- The fronts of code in two pieces. -/
theorem fronts_append (code code' : List Stmt) :
    fronts (code ++ code') = fronts code ++ fronts code' := by
  rw [fronts, titled, partsAll_append, List.filterMap_append, List.map_append]
  rfl

/-- The fronts of code come statement by statement. -/
theorem fronts_cons (stmt : Stmt) (code : List Stmt) :
    fronts (stmt :: code) = fronts [stmt] ++ fronts code := by
  rw [← fronts_append, List.singleton_append]

/-- The fronts of many pieces of code. -/
theorem fronts_flatMap {α : Type} (xs : List α) (f : α → List Stmt) :
    fronts (xs.flatMap f) = xs.flatMap fun x => fronts (f x) := by
  induction xs with
  | nil => rfl
  | cons x xs ih => rw [List.flatMap_cons, fronts_append, ih, List.flatMap_cons]

/-- There are as many bodies behind a text as blocks that it stands in front of. -/
theorem length_bodies (front : String) (code : List Stmt) :
    (bodies front code).length = (fronts code).count front := by
  rw [bodies, List.length_map, fronts, List.count, List.countP_map, List.countP_eq_length_filter]
  rfl

/-- If a text stands in front of one block only, its body is the only one behind it. -/
theorem bodies_eq_singleton {body : List Stmt} {closed : Bool}
    (hcount : (fronts code).count front = 1)
    (hmem : .block (.text front) body closed ∈ partsAll code) : bodies front code = [body] := by
  obtain ⟨other, hother⟩ := List.length_eq_one_iff.mp ((length_bodies front code).trans hcount)
  have htitled : (front, body) ∈ titled code := List.mem_filterMap.mpr ⟨_, hmem, rfl⟩
  have hbody : body ∈ bodies front code :=
    List.mem_map.mpr ⟨_, List.mem_filter.mpr ⟨htitled, beq_self_eq_true front⟩, rfl⟩
  rw [hother, List.mem_singleton] at hbody
  rw [hother, hbody]

/-- Lines have no block. -/
theorem fronts_of_lines (h : ∀ stmt ∈ code, ∃ text, stmt = .line text) : fronts code = [] := by
  rw [fronts, titled, partsAll_eq_flatMap, List.filterMap_flatMap, List.map_eq_nil_iff,
    List.flatMap_eq_nil_iff]
  intro stmt hstmt
  obtain ⟨text, rfl⟩ := h stmt hstmt
  rfl

/-- Numbered members are lines. -/
theorem fronts_numbered (first : Nat) (members : List (String × String)) :
    fronts (numbered first members) = [] := by
  induction members generalizing first with
  | nil => rfl
  | cons member rest ih =>
    rw [numbered, ← List.singleton_append, fronts_append, ih]
    rfl

/-- Lines made from a list are lines. -/
theorem fronts_map_line {α : Type} (xs : List α) (text : α → String) :
    fronts (xs.map fun x => .line (text x)) = [] := by
  refine fronts_of_lines fun stmt hstmt => ?_
  obtain ⟨x, -, rfl⟩ := List.mem_map.mp hstmt
  exact ⟨_, rfl⟩

/-- A block stands in front of what is in it. -/
theorem fronts_block (front : String) (body : List Stmt) (closed : Bool) :
    fronts [.block (.text front) body closed] = front :: fronts body := by
  simp [fronts, titled, titled?]

/-- The function of a routine has the fronts of its body. -/
theorem fronts_routine (r : Routine) (body : List Stmt) :
    fronts [.block (.routine r) body true, .gap] = fronts body := by
  have hparts : partsAll [.block (.routine r) body true, .gap] = .block (.routine r) body true ::
      partsAll body ++ [.gap] := by simp [parts]
  have htitled : titled? (.block (.routine r) body true) = none ∧ titled? .gap = none := ⟨rfl, rfl⟩
  rw [fronts, titled, hparts, List.cons_append, List.filterMap_cons_none htitled.1,
    List.filterMap_append, List.filterMap_cons_none htitled.2, List.filterMap_nil, List.append_nil]
  rfl

/-- An item stands in front of what is in it. -/
theorem fronts_item (front : String) (body : List Stmt) :
    fronts (item front body) = front :: fronts body := by
  rw [item, ← List.singleton_append, fronts_append, fronts_block]
  exact List.append_nil _

/-- Emitted code has no block with a text of its own in front. -/
theorem fronts_of_emits {c : Compiler} {leads : Behavior → Prop} {holds : Nat → Prop}
    (h : ∀ stmt ∈ partsAll code, c.Emits leads holds stmt) : fronts code = [] := by
  refine List.map_eq_nil_iff.mpr (List.filterMap_eq_nil_iff.mpr fun stmt hstmt => ?_)
  cases h stmt hstmt with
  | neutral hneutral =>
    unfold isNeutral at hneutral
    split at hneutral
    case h_10 => cases hneutral
    all_goals rfl
  | _ => rfl

end Stmt

open Stmt

namespace Machine

variable (m : Machine) (config : Config)

/-- The texts in front of the types of a file and of what is in them. -/
def typeFronts : List String :=
  ["pub enum " ++ m.eventEnum, "pub enum " ++ m.stateEnum] ++
    (if config.hasVars then ["pub struct " ++ m.varsType] else []) ++
    ["enum " ++ m.handlerEnum, "pub struct " ++ m.typeName, "impl Default for " ++ m.typeName,
      "fn default() -> Self"]

/-- The texts in front of the functions that every machine has and of what is in them. -/
def functionFronts : List String :=
  ["pub fn new() -> Self", "Self", "pub fn start(&mut self)",
    "pub fn dispatch_event(&mut self, event_id: " ++ m.eventEnum ++ ")",
    "while let Some(func) = behavior_func",
    "fn " ++ Naming.exitUpToFn ++ "(&mut self, desired_state_exit_handler: " ++ m.handlerEnum ++
    ")", "fn " ++ Naming.callHandlerFn ++ "(&mut self, func: " ++ m.handlerEnum ++ ")",
    "match func", "pub fn " ++ "state_id_to_string" ++ "(id: " ++ m.stateEnum ++
    ") -> &'static str", "match id",
    "pub fn " ++ "event_id_to_string" ++ "(id: " ++ m.eventEnum ++ ") -> &'static str", "match id"]

/-- The blocks in the functions that every machine has. -/
theorem fronts_fixedFunctions (this : String) :
    fronts (m.constructor config) = ["pub fn new() -> Self", "Self"] ∧
      fronts (m.dispatcher this) =
        ["pub fn dispatch_event(&mut self, event_id: " ++ m.eventEnum ++ ")",
          "while let Some(func) = behavior_func"] ∧
      fronts m.exitLoop =
        ["fn " ++ Naming.exitUpToFn ++ "(&mut self, desired_state_exit_handler: " ++
          m.handlerEnum ++ ")"] ∧
      fronts (m.handlerCalls this) =
        ["fn " ++ Naming.callHandlerFn ++ "(&mut self, func: " ++ m.handlerEnum ++ ")",
          "match func"] := by
  refine ⟨?_, ?_, ?_, ?_⟩
  · unfold constructor
    rw [← List.singleton_append, fronts_append, fronts_item, fronts_block]
    cases config.hasVars <;> rfl
  · rfl
  · rfl
  · rw [handlerCalls, fronts_item, fronts_block, fronts_map_line]

/-- The blocks in the functions that give names. -/
theorem fronts_nameFunctions : fronts m.nameFunctions =
    ["pub fn " ++ "state_id_to_string" ++ "(id: " ++ m.stateEnum ++ ") -> &'static str", "match id",
      "pub fn " ++ "event_id_to_string" ++ "(id: " ++ m.eventEnum ++ ") -> &'static str",
      "match id"] := by
  have hname (function enum : String) (members : List (String × String)) :
      fronts [nameFunction function enum members] =
        ["pub fn " ++ function ++ "(id: " ++ enum ++ ") -> &'static str", "match id"] := by
    rw [nameFunction, fronts_block, fronts_block, fronts_map_line]
  change fronts ([.gap, .line _] ++ ([nameFunction ..] ++ ([.gap, .line _] ++ [nameFunction ..]))) =
    _
  rw [fronts_append, fronts_append, hname, fronts_append, hname]
  rfl

/-- The blocks in the types of a file. -/
theorem fronts_types (vars : List AutoVar) :
    fronts (m.eventDeclarations ++ m.stateDeclarations ++ m.varsDeclaration config vars ++
      m.handlerDeclarations ++ m.machineDeclaration config ++ m.defaultDeclaration) =
        m.typeFronts config := by
  have hvars : fronts (m.varsDeclaration config vars) =
      if config.hasVars then ["pub struct " ++ m.varsType] else [] := by
    unfold varsDeclaration
    split
    · rw [fronts_append, fronts_item, fronts_append, fronts_map_line]
      split <;> rfl
    · rfl
  have hmachine : fronts (m.machineDeclaration config) = ["pub struct " ++ m.typeName] := by
    unfold machineDeclaration
    rw [fronts_append, fronts_item]
    cases config.hasVars <;> rfl
  have hids (first second front : String) (members : List (String × String)) (count : List Stmt)
      (hcount : fronts count = []) :
      fronts ([.line first, .line second] ++ item front (numbered 0 members) ++ count) =
        [front] := by
    rw [fronts_append, fronts_append, fronts_item, fronts_numbered, hcount]
    rfl
  have hhandlers : fronts m.handlerDeclarations = ["enum " ++ m.handlerEnum] := by
    unfold handlerDeclarations
    rw [fronts_append, fronts_item, fronts_map_line]
    rfl
  rw [fronts_append, fronts_append, fronts_append, fronts_append, fronts_append, hvars, hmachine,
    hhandlers, eventDeclarations, hids _ _ _ _ _ rfl, stateDeclarations, hids _ _ _ _ _ rfl,
    typeFronts]
  simp [defaultDeclaration, fronts_item, fronts_block, fronts_of_lines]

/-- The texts in front of the enumerations, and of what lists or uses all their members. -/
def memberFronts : List String :=
  ["pub enum " ++ m.eventEnum, "pub enum " ++ m.stateEnum, "enum " ++ m.handlerEnum, "Self",
    "match func", "pub fn " ++ "state_id_to_string" ++ "(id: " ++ m.stateEnum ++
    ") -> &'static str",
    "pub fn " ++ "event_id_to_string" ++ "(id: " ++ m.eventEnum ++ ") -> &'static str"]

/-- A text in front of what lists or uses members stands in front of one block of a file only. -/
theorem count_fronts {front : String} (h : front ∈ m.memberFronts) :
    (m.typeFronts config ++ ("impl " ++ m.typeName) :: m.functionFronts).count front = 1 := by
  -- The type of the variables is not always there, so it is compared with the others first.
  have hvars : (if config.hasVars then ["pub struct " ++ m.varsType] else []).count front = 0 := by
    rw [List.count_eq_zero]
    rintro hfront
    split at hfront
    · rw [List.mem_singleton.mp hfront] at h
      simp [memberFronts, ← String.toList_inj, String.toList_append] at h
    · cases hfront
  simp only [memberFronts, List.mem_cons, List.not_mem_nil, or_false] at h
  unfold typeFronts functionFronts
  rw [List.count_append, List.count_append, List.count_append, hvars]
  rcases h with rfl | rfl | rfl | rfl | rfl | rfl | rfl <;>
    simp only [eventEnum, stateEnum, handlerEnum, List.count_cons_self, List.count_cons_of_ne,
      List.count_nil, ne_eq, ← String.toList_inj, String.toList_append, String.reduceToList,
      String.reduceAppend, List.cons_append, List.nil_append, List.append_assoc,
      List.append_cancel_left_eq, List.self_eq_append_right, List.cons.injEq, List.nil_eq,
      Char.reduceEq, reduceCtorEq, true_and, and_true, false_and, and_false, and_self,
      not_false_eq_true, Nat.zero_add, Nat.add_zero]

end Machine

namespace Compiler

variable {c : Compiler} {config : Config} {vars : List AutoVar}

/-- The functions of a state have no block with a text of its own in front. -/
theorem fronts_stateRoutines {v : Nat} (hfault : (c.stateRoutines v).fault = none) :
    fronts (c.stateRoutines v).code = [] := by
  have hroutines := fault_stateRoutines.mp hfault
  have htitle : fronts (c.title v) = [] := rfl
  rw [code_stateRoutines hfault, fronts_append, fronts_flatMap, htitle, List.nil_append]
  refine List.flatMap_eq_nil_iff.mpr fun r hr => ?_
  have hemits : (c.routineBody r).Throughout (c.Emits (fun _ => True) fun _ => True) :=
    emits_routineBody c.follows_any (ofVertex_any r)
  have hbody : fronts (c.routineBody r).code = [] := fronts_of_emits (hemits (hroutines r hr))
  rw [routineCode, fronts_routine, hbody]

/-- The texts in front of the blocks of a file. -/
theorem fronts_file (hfault : (c.functions config).fault = none) :
    fronts (c.file config vars).code =
      c.machine.typeFronts config ++ ("impl " ++ c.machine.typeName) ::
        c.machine.functionFronts := by
  obtain ⟨hstart, hroutines⟩ := fault_functions.mp hfault
  have hemits : c.start.Throughout (c.Emits (fun _ => True) fun _ => True) :=
    emits_start c.follows_any fun _ _ => trivial
  have hstates : fronts (c.machine.states.flatMap fun v => (c.stateRoutines v).code) = [] := by
    rw [fronts_flatMap]
    refine List.flatMap_eq_nil_iff.mpr fun v hv =>
      fronts_stateRoutines (fault_stateRoutines.mpr fun r hr => ?_)
    exact hroutines r (List.mem_flatMap.mpr ⟨v, hv, hr⟩)
  have hdeclarations : fronts (c.declarations config vars) = c.machine.typeFronts config := by
    have htop :
        fronts (if Text.isBlank config.fileTop.toList then [] else [.userCode config.fileTop]) =
          [] := by
      split <;> rfl
    have hfront : fronts (fileBanner ::
        (if Text.isBlank config.fileTop.toList then [] else [.userCode config.fileTop]) ++ [.gap]) =
          [] := by
      rw [List.cons_append, fronts_cons, fronts_append, htop]
      rfl
    rw [← c.machine.fronts_types config vars, declarations, fronts_append]
    simp only [fronts_append, hfront, List.nil_append]
    exact List.append_nil _
  obtain ⟨hnew, hdispatch, hexit, hcalls⟩ := c.machine.fronts_fixedFunctions config c.ctx.machine
  rw [code_file hfault, fronts_append, hdeclarations, fronts_block]
  rw [fronts_append, fronts_append, hnew, fronts_append, fronts_block,
    fronts_of_emits (hemits hstart)]
  rw [fronts_append, fronts_append, fronts_append, fronts_cons .gap, hdispatch, hexit, hcalls,
    fronts_append, hstates, c.machine.fronts_nameFunctions]
  rfl

/-- The declarations and the functions of a file are parts of it. -/
theorem mem_parts_file {stmt : Stmt} (hfault : (c.functions config).fault = none)
    (h : stmt ∈ partsAll (c.declarations config vars) ∨
      stmt ∈ partsAll (c.machine.constructor config ++ c.machine.handlerCalls c.ctx.machine ++
        c.machine.nameFunctions)) : stmt ∈ partsAll (c.file config vars).code := by
  rw [code_file hfault]
  simp only [partsAll_append, partsAll_cons, parts_block, List.mem_append, List.mem_cons] at h ⊢
  grind

/-- The enumerations, and what lists or uses all their members, stand in a file once. -/
theorem bodies_file {front : String} {body : List Stmt} (hfault : (c.functions config).fault = none)
    (hfront : front ∈ c.machine.memberFronts)
    (hbody : .block (.text front) body true ∈ partsAll (c.declarations config vars) ∨
      .block (.text front) body true ∈ partsAll (c.machine.constructor config ++
        c.machine.handlerCalls c.ctx.machine ++ c.machine.nameFunctions)) :
    bodies front (c.file config vars).code = [body] := by
  refine bodies_eq_singleton ?_ (mem_parts_file hfault hbody)
  rw [fronts_file hfault]
  exact c.machine.count_fronts config hfront

end Compiler

end Statechart
