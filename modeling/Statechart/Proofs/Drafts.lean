import Statechart.Code.Draft

/-!
# Drafts without a fault

How the ways of putting drafts together treat faults: a fault of the whole is a fault of one of its
parts, and the code of a draft without a fault is the code of all its parts in order.
-/

namespace Statechart.Draft

variable {α : Type} {first second body : Draft} {head : Head} {fault : Fault} {xs : List α}
  {f : α → Draft}

/-- Plain code has no fault. -/
@[simp] theorem fault_emit (code : List Stmt) : (emit code).fault = none := rfl

/-- Plain code is itself. -/
@[simp] theorem code_emit (code : List Stmt) : (emit code).code = code := rfl

/-- A failure has a fault. -/
@[simp] theorem fault_fail (fault : Fault) : (fail fault).fault = some fault := rfl

/-- One draft after another has the first fault of the two. -/
@[simp] theorem fault_andThen (first second : Draft) :
    (first >> second).fault = first.fault.or second.fault := by
  change (andThen first fun _ => second).fault = _
  rw [andThen]
  cases hfirst : first.fault with
  | none => rfl
  | some fault => simpa using hfirst

/-- One draft after another has the code of both, unless the first one failed. -/
theorem code_andThen (h : first.fault = none) :
    (first >> second).code = first.code ++ second.code := by
  change (andThen first fun _ => second).code = _
  simp [andThen, h]

/-- A block fails where its body fails. -/
@[simp] theorem fault_block (head : Head) (body : Draft) :
    (block head body).fault = body.fault := rfl

/-- A block without a fault is closed. -/
theorem code_block (h : body.fault = none) :
    (block head body).code = [.block head body.code true] := by
  simp [block, h]

/-- Going on with a value that is there is going on with it. -/
@[simp] theorem given_ok (a : α) (rest : α → Draft) : given (.ok a) rest = rest a := rfl

/-- Nothing goes on without a value. -/
@[simp] theorem given_error (fault : Fault) (rest : α → Draft) :
    given (.error fault) rest = fail fault := rfl

/-- Drafts for no elements are empty. -/
@[simp] theorem each_nil (f : α → Draft) : each [] f = {} := rfl

/-- Drafts for elements come one after the other. -/
theorem each_cons (x : α) (xs : List α) (f : α → Draft) :
    each (x :: xs) f = (f x >> each xs f) := rfl

/-- Drafts for elements have no fault if none of them has. -/
theorem fault_each_eq_none : (each xs f).fault = none ↔ ∀ x ∈ xs, (f x).fault = none := by
  induction xs with
  | nil => simp
  | cons x xs ih => rw [each_cons, fault_andThen, Option.or_eq_none_iff, ih, List.forall_mem_cons]

/-- A fault of drafts for elements is a fault of one of them. -/
theorem exists_of_fault_each (h : (each xs f).fault = some fault) :
    ∃ x ∈ xs, (f x).fault = some fault := by
  induction xs with
  | nil => simp at h
  | cons x xs ih =>
    rw [each_cons, fault_andThen, Option.or_eq_some_iff] at h
    rcases h with hfirst | ⟨-, hrest⟩
    · exact ⟨x, List.mem_cons_self, hfirst⟩
    · obtain ⟨y, hy, hfault⟩ := ih hrest
      exact ⟨y, List.mem_cons_of_mem _ hy, hfault⟩

/-- The code of drafts for elements is their code in order, if none of them fails. -/
theorem code_each (h : ∀ x ∈ xs, (f x).fault = none) :
    (each xs f).code = xs.flatMap fun x => (f x).code := by
  induction xs with
  | nil => rfl
  | cons x xs ih =>
    rw [List.forall_mem_cons] at h
    rw [each_cons, code_andThen h.1, ih h.2, List.flatMap_cons]

end Statechart.Draft
