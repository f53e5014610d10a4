import Mathlib.Data.List.Basic
import Statechart.Proofs.Emission
import Statechart.Proofs.FileParts
import Statechart.Proofs.Renaming.Code

/-!
# Blocks are closed where they are opened

Writing code is a sequence of operations on a page. Where every block of the code is closed, the
operations nest: whole lines, and blocks with their fronts, with such operations inside. A page that
goes through nested operations is at the same level afterwards, and whenever a block is closed on
the way, one is open. All code that compiles without a fault has closed blocks only.
-/

namespace Statechart

namespace Page

variable {p q : Page} {cs : List Char}

/-- What can be asked of a page. -/
inductive Op where
  | append (text : List Char)
  | appendLine (text : List Char)
  | appendLines (text : List Char)
  | finishLine (text : List Char)
  | openBlock
  | closeBlock (trailing : List Char)
  | wantBlank
deriving DecidableEq, Repr

/-- The page after one operation. -/
def perform (p : Page) : Op → Option Page
  | .append text => some (p.append text)
  | .appendLine text => some (p.appendLine text)
  | .appendLines text => p.appendLines text
  | .finishLine text => some (p.finishLine text)
  | .openBlock => some p.openBlock
  | .closeBlock trailing => some (p.closeBlock trailing)
  | .wantBlank => some p.wantBlank

/-- The page after operations one after the other. -/
def run (p : Page) (ops : List Op) : Option Page := ops.foldlM perform p

/-- Operations in two parts are done one part after the other. -/
theorem run_append (p : Page) (ops ops' : List Op) :
    p.run (ops ++ ops') = (p.run ops).bind (·.run ops') :=
  List.foldlM_append

/-- Operations are done one by one. -/
theorem run_cons (p : Page) (op : Op) (ops : List Op) :
    p.run (op :: ops) = (p.perform op).bind (·.run ops) :=
  List.foldlM_cons

/-- The level is that before what is put on the page. -/
@[simp] theorem level_put (p : Page) (cs : List Char) : (p.put cs).level = p.level := rfl

/-- A blank line leaves the level. -/
@[simp] theorem level_settleBlank (p : Page) : p.settleBlank.level = p.level := by
  unfold settleBlank
  split
  · dsimp only
    split <;> rfl
  · rfl

/-- Starting a line leaves the level. -/
@[simp] theorem level_startLine (p : Page) : p.startLine.level = p.level := by
  unfold startLine
  split
  · rfl
  · exact p.level_settleBlank

/-- Ending a line leaves the level. -/
@[simp] theorem level_endLine (p : Page) : p.endLine.level = p.level := rfl

/-- Text leaves the level. -/
@[simp] theorem level_append (p : Page) (cs : List Char) : (p.append cs).level = p.level :=
  p.level_startLine

/-- A line leaves the level. -/
@[simp] theorem level_appendLine (p : Page) (cs : List Char) :
    (p.appendLine cs).level = p.level := by
  unfold appendLine
  split <;> simp

/-- Lines leave the level. -/
theorem level_foldl_appendLine (p : Page) (ls : List (List Char)) :
    (ls.foldl appendLine p).level = p.level := by
  induction ls generalizing p with
  | nil => rfl
  | cons line ls ih => rw [List.foldl_cons, ih, level_appendLine]

/-- Opening a block raises the level. -/
@[simp] theorem level_openBlock (p : Page) : p.openBlock.level = p.level + 1 := by
  unfold openBlock
  dsimp only
  split <;> simp

/-- Closing a block lowers the level. -/
@[simp] theorem level_closeBlock (p : Page) (trailing : List Char) :
    (p.closeBlock trailing).level = p.level - 1 := by
  unfold closeBlock
  dsimp only
  split <;> simp

/-- A line is over when it is written. -/
@[simp] theorem midLine_appendLine (p : Page) (cs : List Char) :
    (p.appendLine cs).midLine = false := by
  unfold appendLine
  split <;> rfl

/-- Lines are over when they are written. -/
theorem midLine_foldl_appendLine (h : p.midLine = false) (ls : List (List Char)) :
    (ls.foldl appendLine p).midLine = false := by
  induction ls generalizing p with
  | nil => exact h
  | cons line ls ih => exact ih (midLine_appendLine p line)

/-- The brace that opens a block ends its line. -/
@[simp] theorem midLine_openBlock (p : Page) : p.openBlock.midLine = false := by
  unfold openBlock
  dsimp only
  split
  · rfl
  · exact midLine_appendLine _ _

/-- The brace that closes a block, with what follows it, ends its line. -/
@[simp] theorem midLine_closeBlock (p : Page) (trailing : List Char) :
    (p.closeBlock trailing).midLine = false := rfl

/-- Ending a line that may be open leaves none open. -/
@[simp] theorem midLine_finishLine (p : Page) (cs : List Char) :
    (p.finishLine cs).midLine = false := by
  unfold finishLine
  generalize (if cs.isEmpty then p else p.append cs) = page
  dsimp only
  split
  · rfl
  · next h => exact Bool.eq_false_iff.mpr h

/-- Ending a line leaves the level. -/
@[simp] theorem level_finishLine (p : Page) (cs : List Char) :
    (p.finishLine cs).level = p.level := by
  unfold finishLine
  dsimp only
  split <;> split <;> simp

/-- Whether the operation adds text in front of a block. -/
def Op.isFront : Op → Bool
  | .append _ | .appendLines _ => true
  | _ => false

/-- Whether the operation writes whole lines or asks for a blank one. -/
def Op.isWhole : Op → Bool
  | .appendLine _ | .appendLines _ | .finishLine _ | .wantBlank => true
  | _ => false

/-- Operations that close every block they open, and no other. -/
inductive Nested : List Op → Prop
  | nil : Nested []
  | line {op : Op} {rest : List Op} (hop : op.isWhole) (hrest : Nested rest) : Nested (op :: rest)
  | block {front body rest : List Op} (trailing : List Char) (hfront : ∀ op ∈ front, op.isFront)
      (hbody : Nested body) (hrest : Nested rest) :
      Nested (front ++ .openBlock :: (body ++ .closeBlock trailing :: rest))

/-- Text in front of a block leaves the level. -/
theorem level_of_isFront {op : Op} (hop : op.isFront) (h : p.perform op = some q) :
    q.level = p.level := by
  cases op with
  | append text =>
    obtain rfl := Option.some.inj h
    exact level_append p text
  | appendLines text =>
    obtain ⟨ls, -, rfl⟩ := Option.map_eq_some_iff.mp h
    exact level_foldl_appendLine p ls
  | _ => cases hop

/-- Whole lines leave the level, and no line open. -/
theorem perform_of_isWhole {op : Op} (hop : op.isWhole) (h : p.perform op = some q) :
    q.level = p.level ∧ (p.midLine = false → q.midLine = false) := by
  cases op with
  | appendLine text =>
    obtain rfl := Option.some.inj h
    exact ⟨level_appendLine p text, fun _ => midLine_appendLine p text⟩
  | appendLines text =>
    obtain ⟨ls, -, rfl⟩ := Option.map_eq_some_iff.mp h
    exact ⟨level_foldl_appendLine p ls, fun hp => midLine_foldl_appendLine hp ls⟩
  | finishLine text =>
    obtain rfl := Option.some.inj h
    exact ⟨level_finishLine p text, fun _ => midLine_finishLine p text⟩
  | wantBlank =>
    obtain rfl := Option.some.inj h
    exact ⟨rfl, id⟩
  | _ => cases hop

/-- All text in front of a block leaves the level. -/
theorem level_of_front {front : List Op} (hfront : ∀ op ∈ front, op.isFront)
    (h : p.run front = some q) :
    q.level = p.level := by
  induction front generalizing p with
  | nil => rw [← Option.some.inj h]
  | cons op front ih =>
    rw [List.forall_mem_cons] at hfront
    rw [run_cons] at h
    obtain ⟨next, hnext, hrun⟩ := Option.bind_eq_some_iff.mp h
    rw [ih hfront.2 hrun, level_of_isFront hfront.1 hnext]

/-- The front of a block is written, then what is inside it on the next level. -/
theorem run_open {front inner : List Op} (h : p.run (front ++ .openBlock :: inner) = some q) :
    ∃ opened, p.run front = some opened ∧ opened.openBlock.run inner = some q := by
  rw [run_append] at h
  obtain ⟨opened, hopened, h⟩ := Option.bind_eq_some_iff.mp h
  rw [run_cons, perform, Option.bind_some] at h
  exact ⟨opened, hopened, h⟩

/-- The stages of a block: its front, its body on the next level, and its closing brace. -/
theorem run_block {front body rest : List Op} {trailing : List Char}
    (h : p.run (front ++ .openBlock :: (body ++ .closeBlock trailing :: rest)) = some q) :
    ∃ opened filled, p.run front = some opened ∧ opened.openBlock.run body = some filled ∧
      (filled.closeBlock trailing).run rest = some q := by
  obtain ⟨opened, hopened, h⟩ := run_open h
  rw [run_append] at h
  obtain ⟨filled, hfilled, h⟩ := Option.bind_eq_some_iff.mp h
  exact ⟨opened, filled, hopened, hfilled, h⟩

/-- A block is closed inside the body of another, at its end, or behind it. -/
theorem close_in_block {front body rest before after : List Op} {trailing trailing' : List Char}
    (hfront : ∀ op ∈ front, op.isFront)
    (h : front ++ .openBlock :: (body ++ .closeBlock trailing' :: rest) =
      before ++ .closeBlock trailing :: after) :
    (∃ inner tail, before = front ++ .openBlock :: inner ∧
      body = inner ++ .closeBlock trailing :: tail) ∨
      before = front ++ .openBlock :: body ∨
      ∃ inner, before = front ++ .openBlock :: (body ++ .closeBlock trailing' :: inner) ∧
        rest = inner ++ .closeBlock trailing :: after := by
  rcases List.append_eq_append_iff.mp h with ⟨inner, rfl, hinner⟩ | ⟨tail, rfl, htail⟩
  · cases inner with
    | nil => simp at hinner
    | cons op inner =>
      obtain ⟨rfl, hbehind⟩ := List.cons.inj hinner
      rcases List.append_eq_append_iff.mp hbehind with ⟨later, rfl, hlater⟩ | ⟨tail, rfl, htail⟩
      · cases later with
        | nil => exact .inr (.inl (by rw [List.append_nil]))
        | cons op later =>
          obtain ⟨rfl, hrest⟩ := List.cons.inj hlater
          exact .inr (.inr ⟨later, rfl, hrest⟩)
      · cases tail with
        | nil => exact .inr (.inl (by rw [List.append_nil]))
        | cons op tail =>
          obtain ⟨rfl, -⟩ := List.cons.inj htail
          exact .inl ⟨inner, tail, rfl, rfl⟩
  · -- the front itself closes nothing
    cases tail with
    | nil => simp at htail
    | cons op tail =>
      obtain ⟨rfl, -⟩ := List.cons.inj htail
      have hclose := hfront (.closeBlock trailing) (by simp)
      cases hclose

namespace Nested

/-- Nested operations one after the other are nested. -/
theorem append {ops ops' : List Op} (h : Nested ops) (h' : Nested ops') : Nested (ops ++ ops') := by
  induction h with
  | nil => exact h'
  | line hop _ ih => exact .line hop ih
  | block trailing hfront hbody _ _ ih =>
    rw [List.append_assoc, List.cons_append, List.append_assoc, List.cons_append]
    exact .block trailing hfront hbody ih

/-- Nested operations leave the level, and no line open. -/
theorem run_eq {ops : List Op} (h : Nested ops) (hrun : p.run ops = some q) :
    q.level = p.level ∧ (p.midLine = false → q.midLine = false) := by
  induction h generalizing p q with
  | nil =>
    obtain rfl := Option.some.inj hrun
    exact ⟨rfl, id⟩
  | line hop _ ih =>
    rw [run_cons] at hrun
    obtain ⟨next, hnext, hrest⟩ := Option.bind_eq_some_iff.mp hrun
    obtain ⟨hlevel, hmid⟩ := perform_of_isWhole hop hnext
    obtain ⟨hlevel', hmid'⟩ := ih hrest
    exact ⟨hlevel'.trans hlevel, fun hp => hmid' (hmid hp)⟩
  | block trailing hfront _ _ ihbody ihrest =>
    obtain ⟨opened, filled, hopened, hfilled, hrest⟩ := run_block hrun
    obtain ⟨hbody, -⟩ := ihbody hfilled
    obtain ⟨hlevel, hmid⟩ := ihrest hrest
    refine ⟨?_, fun _ => hmid (midLine_closeBlock filled trailing)⟩
    rw [hlevel, level_closeBlock, hbody, level_openBlock, level_of_front hfront hopened,
      Nat.add_sub_cancel]

/-- Where nested operations close a block, one of theirs is open. -/
theorem level_lt_of_close {ops before after : List Op} {trailing : List Char} (h : Nested ops)
    (hops : ops = before ++ .closeBlock trailing :: after) (hrun : p.run before = some q) :
    p.level < q.level := by
  induction h generalizing p q before after with
  | nil => simp at hops
  | line hop _ ih =>
    cases before with
    | nil =>
      obtain ⟨rfl, -⟩ := List.cons.inj hops
      cases hop
    | cons op before =>
      obtain ⟨rfl, hrest⟩ := List.cons.inj hops
      rw [run_cons] at hrun
      obtain ⟨next, hnext, hrun⟩ := Option.bind_eq_some_iff.mp hrun
      rw [← (perform_of_isWhole hop hnext).1]
      exact ih hrest hrun
  | block _ hfront hbody _ ihbody ihrest =>
    rcases close_in_block hfront hops with ⟨inner, tail, rfl, rfl⟩ | rfl | ⟨inner, rfl, rfl⟩
    · obtain ⟨opened, hopened, hinner⟩ := run_open hrun
      have hinside := ihbody rfl hinner
      rw [level_openBlock, level_of_front hfront hopened] at hinside
      omega
    · obtain ⟨opened, hopened, hfilled⟩ := run_open hrun
      rw [(hbody.run_eq hfilled).1, level_openBlock, level_of_front hfront hopened]
      exact Nat.lt_succ_self _
    · obtain ⟨opened, filled, hopened, hfilled, hinner⟩ := run_block hrun
      have hlater := ihrest rfl hinner
      rwa [level_closeBlock, (hbody.run_eq hfilled).1, level_openBlock,
        level_of_front hfront hopened, Nat.add_sub_cancel] at hlater

end Nested

end Page

open Page (Op Nested)

/-- The operations that write what stands in front of a block. -/
def Head.ops (m : Machine) (this : String) : Head → List Op
  | text line => [.append line.toList]
  | routine r => [.append ("fn " ++ m.routineName r ++ "(&mut self)").toList]
  | behavior _ none => []
  | behavior _ (some guard) =>
    let condition := ("if " ++ guard).toList
    if guard.toList.contains '\n' then [.appendLines condition] else [.append condition]
  | movedOn v =>
    [.append ("if " ++ Machine.exitSlot this ++ " != Some(" ++ m.exitRef v ++ ")").toList]
  | consumed => [.append ("if " ++ Snippet.consumeFlag).toList]
  | whileExit => [.append ("while let Some(handler) = " ++ Machine.exitSlot this).toList]
  | exitReached => [.append "if handler == desired_state_exit_handler".toList]

variable {m : Machine} {this : String}

/-- The operations of a front write it. -/
theorem Head.write_eq_run (page : Page) (head : Head) :
    head.write m this page = page.run (head.ops m this) := by
  cases head with
  | behavior b guard =>
    cases guard with
    | none => rfl
    | some guard =>
      unfold write ops
      dsimp only
      split
      · rw [Page.run_cons, Page.perform]
        exact (Option.bind_fun_some _).symm
      · rfl
  | _ => rfl

/-- A front is text. -/
theorem Head.isFront_of_mem_ops {head : Head} {op : Op} (h : op ∈ head.ops m this) :
    op.isFront := by
  cases head with
  | behavior b guard =>
    cases guard with
    | none => cases h
    | some guard =>
      unfold ops at h
      dsimp only at h
      split at h <;> rw [List.mem_singleton.mp h] <;> rfl
  | _ =>
    rw [List.mem_singleton.mp h]
    rfl

namespace Stmt

mutual

/-- The operations that write a statement. -/
def ops (m : Machine) (this : String) : Stmt → List Op
  | gap => [.wantBlank]
  | userCode text => [.appendLines text.toList]
  | block head body closed =>
    head.ops m this ++ .openBlock ::
      (opsAll m this body ++ if closed then [.closeBlock (head.trailing m).toList] else [])
  | inlined _ body => opsAll m this body
  | stmt => [.appendLine (stmt.lineText m this).toList]

/-- The operations that write statements one after the other. -/
def opsAll (m : Machine) (this : String) : List Stmt → List Op
  | [] => []
  | stmt :: rest => ops m this stmt ++ opsAll m this rest

end

/-- How a statement on a line of its own is written. -/
theorem ops_of_isLine {stmt : Stmt} (h : stmt.isLine) :
    stmt.ops m this = [.appendLine (stmt.lineText m this).toList] := by
  cases stmt with
  | gap | userCode | block | inlined => cases h
  | _ => rw [ops] <;> simp

mutual

/-- The operations of a statement write it. -/
theorem write_eq_run (page : Page) :
    (stmt : Stmt) → stmt.write m this page = page.run (stmt.ops m this)
  | .block head body closed => by
    rw [write_block, ops, Page.run_append, Head.write_eq_run]
    refine congrArg (Option.bind _) (funext fun front => ?_)
    rw [Page.run_cons, Page.perform, Option.bind_some, Page.run_append, writeAll_eq_run]
    refine congrArg (Option.bind _) (funext fun filled => ?_)
    cases closed <;> rfl
  | .inlined p body => by
    rw [write, ops]
    exact writeAll_eq_run page body
  | .gap => by
    rw [write, ops]
    rfl
  | .userCode text => by
    rw [write, ops, Page.run_cons, Page.perform]
    exact (Option.bind_fun_some _).symm
  | .line _ | .comment _ | .enter _ | .exit _ | .exitUpTo _ | .setExit _ | .setHandler ..
  | .restoreHandler ..
  | .passTo .. | .stopEvent _ | .settle _ | .proceed _ | .callExit | .stopLoop | .ret _ => by
    rw [write_of_isLine page rfl, ops_of_isLine rfl]
    rfl

/-- The operations of code write it. -/
theorem writeAll_eq_run (page : Page) : (code : List Stmt) →
    writeAll m this page code = page.run (opsAll m this code)
  | [] => by
    rw [writeAll, opsAll]
    rfl
  | stmt :: rest => by
    rw [writeAll_cons, opsAll, Page.run_append, write_eq_run page stmt]
    exact congrArg (Option.bind _) (funext fun next => writeAll_eq_run next rest)

end

/-- Whether the statement is no block that stays open. -/
def isSealed : Stmt → Bool
  | block _ _ closed => closed
  | _ => true

mutual

/-- The operations of a statement with closed blocks are nested. -/
theorem nested_ops : (stmt : Stmt) → (∀ part ∈ stmt.parts, part.isSealed) → Nested (stmt.ops m this)
  | .block head body closed => by
    intro h
    rw [parts_block, List.forall_mem_cons] at h
    obtain ⟨rfl, hbody⟩ := h
    exact .block _ (fun _ => Head.isFront_of_mem_ops) (nested_opsAll body hbody) .nil
  | .inlined p body => by
    intro h
    rw [parts_inlined, List.forall_mem_cons] at h
    exact nested_opsAll body h.2
  | .gap => fun _ => .line rfl .nil
  | .userCode text => fun _ => .line rfl .nil
  | .line _ | .comment _ | .enter _ | .exit _ | .exitUpTo _ | .setExit _ | .setHandler ..
  | .restoreHandler ..
  | .passTo .. | .stopEvent _ | .settle _ | .proceed _ | .callExit | .stopLoop
  | .ret _ => fun _ => by
    rw [ops_of_isLine rfl]
    exact .line rfl .nil

/-- The operations of code with closed blocks are nested. -/
theorem nested_opsAll : (code : List Stmt) → (∀ part ∈ partsAll code, part.isSealed) →
    Nested (opsAll m this code)
  | [], _ => .nil
  | stmt :: rest, h => by
    rw [partsAll_cons, List.forall_mem_append] at h
    exact (nested_ops stmt h.1).append (nested_opsAll rest h.2)

end

/-- The blocks in fixed parts of a file are closed. -/
theorem isSealed_of_isFixed {stmt : Stmt} (h : stmt.isFixed) : stmt.isSealed := by
  unfold isFixed at h
  split at h
  case h_10 => cases h
  all_goals first | rfl | exact h

/-- Code has no open block exactly if none is found in it. -/
theorem filter_open_eq_nil {code : List Stmt} :
    (partsAll code).filter (fun stmt => !stmt.isSealed) = [] ↔
      ∀ stmt ∈ partsAll code, stmt.isSealed := by
  simp [List.filter_eq_nil_iff]

end Stmt

open Stmt

namespace Compiler

variable {c : Compiler} {config : Config} {vars : List AutoVar} {v : Nat} {b : Behavior}

/-- The blocks in emitted code are closed. -/
theorem isSealed_of_emits {leads : Behavior → Prop} {holds : Nat → Prop} {stmt : Stmt}
    (h : c.Emits leads holds stmt) : stmt.isSealed := by
  cases h with
  | neutral h =>
    unfold isNeutral at h
    split at h
    case h_10 => cases h
    all_goals first | rfl | exact h
  | _ => rfl

/-- A transition that compiles has closed blocks only. -/
theorem sealed_transition (c : Compiler) (quiet check : Bool) (depth : Nat) (b : Behavior) :
    (c.transition quiet check depth b).Throughout (·.isSealed) := by
  have hemits :
      (c.transition quiet check depth b).Throughout (c.Emits (fun _ => True) fun _ => True) :=
    emits_transitionWith c.follows_any (emits_inline c.follows_any _ _) fun _ => trivial
  exact fun hfault stmt hstmt => isSealed_of_emits (hemits hfault stmt hstmt)

/-- The behaviors of a vertex on a trigger, if they compile, have closed blocks only. -/
theorem sealed_behaviorsFor (c : Compiler) (v : Nat) (trigger : String) :
    (c.behaviorsFor v trigger).Throughout (·.isSealed) := by
  have hemits : (c.behaviorsFor v trigger).Throughout (c.Emits (fun _ => True) fun _ => True) :=
    emits_behaviorsFor c.follows_any trivial trivial trigger
  exact fun hfault stmt hstmt => isSealed_of_emits (hemits hfault stmt hstmt)

/-- No block is open in the function of a routine. -/
theorem filter_open_routineCode {r : Routine} (hfault : (c.routineBody r).fault = none) :
    (partsAll (c.routineCode r)).filter (fun stmt => !stmt.isSealed) = [] := by
  have hbody : (c.routineBody r).Throughout (c.Emits (fun _ => True) fun _ => True) :=
    emits_routineBody c.follows_any (ofVertex_any r)
  rw [filter_open_eq_nil, routineCode]
  simp only [partsAll_cons, partsAll_nil, parts, List.append_nil, List.cons_append,
    List.forall_mem_cons, List.forall_mem_append, List.not_mem_nil, false_implies, implies_true,
    and_true]
  exact ⟨rfl, fun stmt hstmt => isSealed_of_emits (hbody hfault stmt hstmt), rfl⟩

/-- The functions of a vertex that compile have closed blocks only. -/
theorem sealed_stateRoutines (c : Compiler) (v : Nat) :
    (c.stateRoutines v).Throughout (·.isSealed) := by
  intro hfault
  have hkeep (stmt : Stmt) (h : stmt.isFixed) : (!stmt.isSealed) = false := by
    rw [isSealed_of_isFixed h, Bool.not_true]
  rw [← filter_open_eq_nil, filter_parts_stateRoutines hkeep hfault, List.flatMap_eq_nil_iff]
  exact fun r hr => filter_open_routineCode (fault_stateRoutines.mp hfault r hr)

/-- A file that compiles has closed blocks only. -/
theorem sealed_file (c : Compiler) (config : Config) (vars : List AutoVar) :
    (c.file config vars).Throughout (·.isSealed) := by
  intro hfault
  have hkeep (stmt : Stmt) (h : stmt.isFixed) : (!stmt.isSealed) = false := by
    rw [isSealed_of_isFixed h, Bool.not_true]
  have hstart : c.start.Throughout (c.Emits (fun _ => True) fun _ => True) :=
    emits_start c.follows_any fun _ _ => trivial
  rw [fault_file] at hfault
  rw [← filter_open_eq_nil, filter_parts_file hkeep hfault, List.append_eq_nil_iff,
    List.flatMap_eq_nil_iff, filter_open_eq_nil]
  obtain ⟨hfaultStart, hroutines⟩ := fault_functions.mp hfault
  exact ⟨fun stmt hstmt => isSealed_of_emits (hstart hfaultStart stmt hstmt),
    fun r hr => filter_open_routineCode (hroutines r hr)⟩

end Compiler

/-- Writing the draft leaves a page at the level it is at, if the draft has no fault. -/
def Draft.KeepsLevel (m : Machine) (this : String) (draft : Draft) : Prop :=
  draft.fault = none → ∀ page page', writeAll m this page draft.code = some page' →
    page'.level = page.level

/-- Drafts with closed blocks only keep the level. -/
theorem Draft.Throughout.keepsLevel {draft : Draft} (h : draft.Throughout (·.isSealed)) :
    draft.KeepsLevel m this := by
  intro hfault page page' hwrite
  rw [writeAll_eq_run] at hwrite
  exact ((nested_opsAll draft.code (h hfault)).run_eq hwrite).1

namespace Machine

/-- The page that the file for a machine gives when it is written behind what a
page holds already. -/
def generateOn (m : Machine) (config : Config) (expander : Snippet.Expander) (ctx : Context)
    (page : Page) :
    Except CompileError Page :=
  match m.collision with
  | some c => .error (.collision c)
  | none =>
    match config.autoVars with
    | .error e => .error ((m.compiler expander ctx).refusal config page e)
    | .ok vars =>
      let draft := (m.compiler expander ctx).file config vars
      match writeAll m ctx.machine page draft.code, draft.fault with
      | none, _ => .error .unevenIndent
      | some _, some f => .error (.fault f)
      | some page, none => .ok page

/-- The file for a machine is the text of a fresh page that it is written to. -/
theorem generateWith_eq (m : Machine) (config : Config) (expander : Snippet.Expander)
    (ctx : Context) :
    m.generateWith config expander ctx =
      (m.generateOn config expander ctx { style := config.style }).map Page.text := by
  unfold generateWith generateOn
  cases m.collision with
  | some c => rfl
  | none =>
    cases config.autoVars with
    | error e => rfl
    | ok vars =>
      unfold Draft.render compiler
      dsimp only
      generalize Compiler.file _ config vars = draft
      generalize writeAll m ctx.machine _ draft.code = written
      cases written <;> cases draft.fault <;> rfl

/-- What a page went through that a file was written to. -/
theorem generateOn_eq_ok {config : Config} {expander : Snippet.Expander} {ctx : Context}
    {page page' : Page} (h : m.generateOn config expander ctx page = .ok page') :
    ∃ vars, config.autoVars = .ok vars ∧ ((m.compiler expander ctx).file config vars).fault = none ∧
      page.run (opsAll m ctx.machine ((m.compiler expander ctx).file config vars).code) =
        some page' := by
  unfold generateOn at h
  split at h
  · cases h
  · split at h
    · cases h
    · next vars hvars =>
      dsimp only at h
      split at h
      · cases h
      · cases h
      · next written hwritten hfault =>
        obtain rfl := Except.ok.inj h
        exact ⟨vars, hvars, hfault, by rw [← writeAll_eq_run, hwritten]⟩

/-- A generated file is the text of a fresh page. A file on a fresh page of any style leaves
no block and no line open, and whenever it closes a block on the way, one is open. Any
transition, all behaviors of a vertex on a trigger, and all functions of a vertex leave the
level of any page as it is. -/
theorem generated_blocks_close (m : Machine) (config : Config) (expander : Snippet.Expander)
    (ctx : Context) (style : Style) :
    m.generateWith config expander ctx =
        (m.generateOn config expander ctx { style := config.style }).map Page.text ∧
      (∀ page, m.generateOn config expander ctx { style := style } = .ok page →
        page.level = 0 ∧ page.midLine = false ∧ ∃ vars, config.autoVars = .ok vars ∧
        let ops := opsAll m ctx.machine ((m.compiler expander ctx).file config vars).code
        ({ style := style } : Page).run ops = some page ∧
          ∀ before trailing after, ops = before ++ .closeBlock trailing :: after →
            ∃ p, ({ style := style } : Page).run before = some p ∧ 1 ≤ p.level) ∧
      ∀ plan : Plan, let c : Compiler := ⟨m, plan, expander, ctx⟩
        (∀ quiet check depth b, (c.transition quiet check depth b).KeepsLevel m ctx.machine) ∧
        (∀ v trigger, (c.behaviorsFor v trigger).KeepsLevel m ctx.machine) ∧
        ∀ v, (c.stateRoutines v).KeepsLevel m ctx.machine := by
  refine ⟨m.generateWith_eq config expander ctx, fun page hpage => ?_, fun plan =>
    ⟨fun quiet check depth b => ?_, fun v trigger => ?_, fun v => ?_⟩⟩
  · obtain ⟨vars, hvars, hfault, hrun⟩ := generateOn_eq_ok hpage
    have hnested :
        Nested (opsAll m ctx.machine ((m.compiler expander ctx).file config vars).code) :=
      nested_opsAll _ (Compiler.sealed_file _ config vars hfault)
    obtain ⟨hlevel, hmid⟩ := hnested.run_eq hrun
    refine ⟨hlevel, hmid rfl, vars, hvars, hrun, fun before trailing after hops => ?_⟩
    rw [hops, Page.run_append] at hrun
    obtain ⟨p, hp, -⟩ := Option.bind_eq_some_iff.mp hrun
    exact ⟨p, hp, hnested.level_lt_of_close hops hp⟩
  · exact (Compiler.sealed_transition _ quiet check depth b).keepsLevel
  · exact (Compiler.sealed_behaviorsFor _ v trigger).keepsLevel
  · exact (Compiler.sealed_stateRoutines _ v).keepsLevel

/-- The file of the lamp closes blocks, each where one is open, and ends with none open. Turning the
lamp from a page at level two ends at level two. -/
theorem lamp_blocks_close :
    (∃ page, lamp.generateOn {} {} {} {} = .ok page ∧ page.level = 0 ∧ page.midLine = false) ∧
      (∃ vars before after p, opsAll lamp "self" ((lamp.compiler {} {}).file {} vars).code =
        before ++ .closeBlock [] :: after ∧ ({} : Page).run before = some p ∧ 1 ≤ p.level) ∧
      ∃ page, writeAll lamp "self" { level := 2 }
          ((lamp.compiler {} {}).transition true true 0
            { owner := 5, triggers := ["turn"], target := some 7 }).code =
        some page ∧ page.level = 2 := by
  obtain ⟨page, hpage⟩ : ∃ page, lamp.generateOn {} {} {} {} = .ok page :=
    exists_eq_ok (by decide +kernel)
  obtain ⟨-, hfile, hkeeps⟩ := generated_blocks_close lamp {} {} {} {}
  obtain ⟨hlevel, hmid, vars, hvars, -, hclose⟩ := hfile page hpage
  refine ⟨⟨page, hpage, hlevel, hmid⟩, ?_, ?_⟩
  · obtain rfl : vars = [] := (Except.ok.inj hvars).symm
    have hmem : Op.closeBlock [] ∈ opsAll lamp "self" ((lamp.compiler {} {}).file {} []).code := by
      decide +kernel
    obtain ⟨before, after, hops⟩ := List.append_of_mem hmem
    obtain ⟨p, hp, hopen⟩ := hclose before [] after hops
    exact ⟨[], before, after, p, hops, hp, hopen⟩
  · obtain ⟨page', hwrite⟩ : ∃ page',
      writeAll lamp "self" { level := 2 } ((lamp.compiler {} {}).transition true
        true 0 { owner := 5, triggers := ["turn"], target := some 7 }).code = some page' :=
      Option.isSome_iff_exists.mp (by decide +kernel)
    exact ⟨page', hwrite, (hkeeps lamp.plan).1 _ _ _ _ (by decide +kernel) _ _ hwrite⟩

end Machine

end Statechart
