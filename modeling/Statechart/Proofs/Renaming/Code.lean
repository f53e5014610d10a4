import Statechart.Proofs.Drafts
import Statechart.Proofs.Renaming.Names

/-!
# Code under other numbers

Statements name vertices by their numbers until they are written. Writing looks up names, which are
the same in machines that differ in numbers only, so code under other numbers is written to the same
page.
-/

namespace Statechart

variable {m m' : Machine} {f : Nat → Nat} {this : String}

/-- A routine with other numbers for vertices. -/
def Routine.rename (f : Nat → Nat) : Routine → Routine
  | enter v => enter (f v)
  | exit v => exit (f v)
  | event v name => event (f v) name
  | shared p => shared (f p)

/-- The front of a block with other numbers for vertices. -/
def Head.rename (f : Nat → Nat) : Head → Head
  | routine r => routine (r.rename f)
  | behavior b guard => behavior (b.rename f) guard
  | movedOn v => movedOn (f v)
  | text line => text line
  | consumed => consumed
  | whileExit => whileExit
  | exitReached => exitReached

namespace Stmt

mutual

/-- A statement with other numbers for vertices. -/
def rename (f : Nat → Nat) : Stmt → Stmt
  | enter v => enter (f v)
  | exit v => exit (f v)
  | exitUpTo v => exitUpTo (f v)
  | setExit v => setExit (f v)
  | setHandler event v => setHandler event (f v)
  | restoreHandler event v => restoreHandler event (v.map f)
  | passTo v event => passTo (f v) event
  | settle v => settle (f v)
  | proceed p => proceed (f p)
  | block head body closed => block (head.rename f) (renameAll f body) closed
  | inlined p body => inlined (f p) (renameAll f body)
  | line text => line text
  | comment text => comment text
  | userCode text => userCode text
  | gap => gap
  | stopEvent note => stopEvent note
  | callExit => callExit
  | stopLoop => stopLoop
  | ret note => ret note

/-- Statements with other numbers for vertices. -/
def renameAll (f : Nat → Nat) : List Stmt → List Stmt
  | [] => []
  | stmt :: rest => stmt.rename f :: renameAll f rest

end

/-- Statements are renamed one by one. -/
theorem renameAll_eq_map (f : Nat → Nat) (code : List Stmt) :
    renameAll f code = code.map (rename f) := by
  induction code with
  | nil => rfl
  | cons stmt rest ih => rw [renameAll, ih, List.map_cons]

/-- Whether the statement is written as a line of its own. -/
def isLine : Stmt → Bool
  | gap | userCode _ | block .. | inlined .. => false
  | _ => true

/-- A line of its own stays one. -/
theorem isLine_rename (f : Nat → Nat) (stmt : Stmt) : (stmt.rename f).isLine = stmt.isLine := by
  cases stmt <;> rfl

/-- How a block is written. -/
theorem write_block (page : Page) (head : Head) (body : List Stmt) (closed : Bool) :
    write m this page (.block head body closed) = (head.write m this page).bind fun front =>
      (writeAll m this front.openBlock body).bind fun filled =>
        some (if closed then filled.closeBlock (head.trailing m).toList else filled) := by
  rw [write]
  rfl

/-- How statements are written one after the other. -/
theorem writeAll_cons (page : Page) (stmt : Stmt) (rest : List Stmt) :
    writeAll m this page (stmt :: rest) =
      (stmt.write m this page).bind fun next => writeAll m this next rest := by
  rw [writeAll]
  rfl

/-- How a statement on a line of its own is written. -/
theorem write_of_isLine (page : Page) {stmt : Stmt} (h : stmt.isLine) :
    stmt.write m this page = some (page.appendLine (stmt.lineText m this).toList) := by
  cases stmt with
  | gap | userCode | block | inlined => cases h
  | _ => rw [write] <;> simp

end Stmt

namespace Machine.Renaming

variable (h : m.Renaming m' f)
include h

/-- The names of functions are the same. -/
theorem routineName (r : Routine) : m'.routineName (r.rename f) = m.routineName r := by
  cases r <;>
    simp only [Routine.rename, Machine.routineName, enterFn, exitFn, eventFn, h.stateName,
      h.pseudoFn]

/-- References to exit functions are the same. -/
theorem exitRef (v : Nat) : m'.exitRef (f v) = m.exitRef v := by
  simp only [Machine.exitRef, handlerEnum, exitVariant, exitFn, h.typeName, h.stateName]

/-- References to handlers are the same. -/
theorem eventRef (v : Nat) (event : String) : m'.eventRef (f v) event = m.eventRef v event := by
  simp only [Machine.eventRef, handlerEnum, eventVariant, eventFn, h.typeName, h.stateName]

/-- The fronts of blocks are written alike. -/
theorem writeHead (page : Page) (head : Head) :
    (head.rename f).write m' this page = head.write m this page := by
  unfold Head.write
  cases head with
  | routine r => simp only [Head.rename, h.routineName]
  | movedOn v => simp only [Head.rename, h.exitRef]
  | behavior b guard => cases guard <;> rfl
  | text | consumed | whileExit | exitReached => rfl

/-- What stands behind a closing brace is written alike. -/
theorem trailing (head : Head) : (head.rename f).trailing m' = head.trailing m := by
  unfold Head.trailing
  cases head with
  | behavior b guard => simp only [Head.rename, Behavior.owner_rename, h.describe]
  | text | routine | movedOn | consumed | whileExit | exitReached => rfl

/-- The lines of statements are written alike. -/
theorem lineText (stmt : Stmt) : (stmt.rename f).lineText m' this = stmt.lineText m this := by
  have hslot (event : String) : m'.eventSlot this event = m.eventSlot this event := by
    simp only [eventSlot, eventEnum, h.typeName]
  unfold Stmt.lineText
  cases stmt with
  | restoreHandler event v =>
    cases v with
    | none => simp only [Stmt.rename, Option.map_none, hslot]
    | some v => simp only [Stmt.rename, Option.map_some, hslot, h.eventRef, h.describe]
  | _ =>
    simp only [Stmt.rename, enterFn, exitFn, stateEnum, stateMember, hslot, h.stateName, h.typeName,
      h.exitRef, h.eventRef, h.pseudoFn]

/-- Statements that stand on a line of their own are written alike. -/
theorem writeLine (page : Page) {stmt : Stmt} (hline : stmt.isLine) :
    (stmt.rename f).write m' this page = stmt.write m this page := by
  rw [Stmt.write_of_isLine page hline,
    Stmt.write_of_isLine page ((stmt.isLine_rename f).trans hline), h.lineText]

end Machine.Renaming

mutual

/-- Statements under other numbers are written to the same page. -/
theorem Stmt.write_rename (h : m.Renaming m' f) (page : Page) : (stmt : Stmt) →
    (stmt.rename f).write m' this page = stmt.write m this page
  | .block head body closed => by
    rw [rename, write_block, write_block, h.writeHead, h.trailing]
    exact congrArg (Option.bind _)
      (funext fun front => by rw [writeAll_rename h front.openBlock body])
  | .inlined p body => by
    rw [rename, write, write]
    exact writeAll_rename h page body
  | .gap => by rw [rename, write, write]
  | .userCode text => by rw [rename, write, write]
  | .line _ | .comment _ | .enter _ | .exit _ | .exitUpTo _ | .setExit _ | .setHandler ..
  | .restoreHandler ..
  | .passTo .. | .stopEvent _ | .settle _ | .proceed _ | .callExit | .stopLoop | .ret _ =>
    h.writeLine page rfl

/-- Code under other numbers is written to the same page. -/
theorem Stmt.writeAll_rename (h : m.Renaming m' f) (page : Page) : (code : List Stmt) →
    writeAll m' this page (renameAll f code) = writeAll m this page code
  | [] => by rw [renameAll, writeAll, writeAll]
  | stmt :: rest => by
    rw [renameAll, writeAll_cons, write_rename h page stmt, writeAll_cons]
    exact congrArg (Option.bind _) (funext fun next => writeAll_rename h next rest)

end

/-- A fault with other numbers for vertices. -/
def Fault.rename (f : Nat → Nat) : Fault → Fault
  | broken v invariant => broken (f v) invariant
  | expansion b error => expansion (b.rename f) error

/-- A draft with other numbers for vertices. -/
def Draft.rename (f : Nat → Nat) (draft : Draft) : Draft :=
  ⟨draft.code.map (Stmt.rename f), draft.fault.map (Fault.rename f)⟩

namespace Draft

variable {α β : Type}

/-- A draft of plain code is renamed statement by statement. -/
@[simp] theorem rename_emit (f : Nat → Nat) (code : List Stmt) :
    (emit code).rename f = emit (code.map (Stmt.rename f)) := rfl

/-- Drafts one after the other are renamed each. -/
@[simp] theorem rename_andThen (f : Nat → Nat) (first second : Draft) :
    (first >> second).rename f = (first.rename f >> second.rename f) := by
  change (andThen first fun _ => second).rename f = andThen (first.rename f) fun _ =>
    second.rename f
  cases hfault : first.fault with
  | none => simp [andThen, rename, hfault]
  | some fault => simp [andThen, rename, hfault]

/-- Drafts for elements are renamed each. -/
@[simp] theorem rename_each (f : Nat → Nat) (xs : List α) (g : α → Draft) :
    (each xs g).rename f = each xs fun x => (g x).rename f := by
  induction xs with
  | nil => rfl
  | cons x xs ih => rw [each_cons, rename_andThen, ih, each_cons]

/-- Drafts for the images of elements. -/
theorem each_map (h : α → β) (xs : List α) (g : β → Draft) :
    each (xs.map h) g = each xs fun x => g (h x) := by
  induction xs with
  | nil => rfl
  | cons x xs ih => rw [List.map_cons, each_cons, ih, each_cons]

/-- Drafts for elements agree if those for each element do. -/
theorem each_congr {xs : List α} {g g' : α → Draft} (h : ∀ x ∈ xs, g x = g' x) :
    each xs g = each xs g' := by
  induction xs with
  | nil => rfl
  | cons x xs ih =>
    rw [List.forall_mem_cons] at h
    rw [each_cons, each_cons, h.1, ih h.2]

/-- What follows a value is renamed, and so is the fault for want of one. -/
@[simp] theorem rename_given (f : Nat → Nat) (value : Except Fault α) (rest : α → Draft) :
    (given value rest).rename f = given (value.mapError (Fault.rename f)) fun a =>
      (rest a).rename f := by
  cases value <;> rfl

/-- A block is renamed with its body. -/
@[simp] theorem rename_block (f : Nat → Nat) (head : Head) (body : Draft) :
    (block head body).rename f = block (head.rename f) (body.rename f) := by
  simp [block, rename, Stmt.rename, Stmt.renameAll_eq_map]

end Draft

end Statechart
