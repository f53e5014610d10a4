import Mathlib.Data.List.Basic
import Statechart.Code.Stmt

/-!
# Code at any depth

Statements stand in blocks and in pseudo-states that are compiled in place, at any depth. The parts
of code are all its statements with everything inside them, outer statements first.
-/

namespace Statechart.Stmt

mutual

/-- A statement and everything inside it. -/
@[simp] def parts : Stmt → List Stmt
  | block head body closed => block head body closed :: partsAll body
  | inlined p body => inlined p body :: partsAll body
  | stmt => [stmt]

/-- Statements and everything inside them. -/
def partsAll : List Stmt → List Stmt
  | [] => []
  | stmt :: rest => parts stmt ++ partsAll rest

end

variable {stmt : Stmt} {code : List Stmt}

/-- The parts of code are the parts of its statements. -/
theorem partsAll_eq_flatMap (code : List Stmt) : partsAll code = code.flatMap parts := by
  induction code with
  | nil => rfl
  | cons stmt rest ih => rw [partsAll, ih, List.flatMap_cons]

/-- The parts of no code. -/
@[simp] theorem partsAll_nil : partsAll [] = [] := rfl

/-- The parts of code come statement by statement. -/
@[simp] theorem partsAll_cons (stmt : Stmt) (rest : List Stmt) :
    partsAll (stmt :: rest) = parts stmt ++ partsAll rest := rfl

/-- The parts of code in two pieces. -/
@[simp] theorem partsAll_append (front code : List Stmt) :
    partsAll (front ++ code) = partsAll front ++ partsAll code := by
  rw [partsAll_eq_flatMap, List.flatMap_append, ← partsAll_eq_flatMap, ← partsAll_eq_flatMap]

/-- What is inside a block. -/
theorem parts_block (head : Head) (body : List Stmt) (closed : Bool) :
    parts (.block head body closed) = .block head body closed :: partsAll body := rfl

/-- What is inside a pseudo-state in place. -/
theorem parts_inlined (p : Nat) (body : List Stmt) :
    parts (.inlined p body) = .inlined p body :: partsAll body := rfl

end Statechart.Stmt
