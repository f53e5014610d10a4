import Statechart.Proofs.HandlerCode
import Statechart.Proofs.Parts

/-!
# The shape of compiled transitions

A transition that compiles first moves: it leaves states, acts and enters states, where entering may
have led elsewhere already. Then it ends in a state, calls the function of a shared pseudo-state, or
goes on with the transitions of a pseudo-state in place. Everything else in a handler is passive: it
holds no behavior and goes on with no pseudo-state.
-/

namespace Statechart

/-- Whether the statement only moves along a transition: a remark, code of the user, or a call that
enters or leaves a state. -/
def Stmt.isMove : Stmt → Bool
  | .comment _ | .gap | .userCode _ | .enter _ | .exit _ | .exitUpTo _ => true
  | _ => false

/-- Whether the statement is neither a behavior nor a pseudo-state that is gone on with. -/
def Stmt.isPassive : Stmt → Bool
  | .inlined .. | .proceed _ | .block (.behavior ..) .. => false
  | _ => true

/-- Code without behaviors and without pseudo-states, at any depth. -/
def Passive (code : List Stmt) : Prop := ∀ stmt ∈ Stmt.partsAll code, stmt.isPassive

namespace Passive

variable {front code body : List Stmt} {stmt : Stmt}

/-- Code is passive if each of its statements is. -/
theorem of_parts (h : ∀ stmt ∈ code, ∀ part ∈ stmt.parts, part.isPassive) : Passive code := by
  intro part hpart
  rw [Stmt.partsAll_eq_flatMap, List.mem_flatMap] at hpart
  obtain ⟨stmt, hstmt, hpart⟩ := hpart
  exact h stmt hstmt part hpart

/-- Code in two pieces is passive if both are. -/
theorem append (hfront : Passive front) (hcode : Passive code) : Passive (front ++ code) := by
  intro part hpart
  rw [Stmt.partsAll_append, List.mem_append] at hpart
  exact hpart.elim (hfront part) (hcode part)

/-- What belongs to a behavior without a transition is passive. -/
theorem of_isReactive (h : ∀ stmt ∈ code, stmt.isReactive) : Passive code := by
  refine of_parts fun stmt hstmt => ?_
  have hreactive := h stmt hstmt
  unfold Stmt.isReactive at hreactive
  split at hreactive
  case h_7 => cases hreactive
  all_goals simp [Stmt.parts, Stmt.isPassive]

end Passive

namespace Compiler

open Draft

variable {c : Compiler} {quiet check : Bool} {b : Behavior} {p s t v : Nat} {trigger : String}
  {stmt : Stmt}

/-- The question behind an enter call, with what ends the transition at hand if
entering led elsewhere. -/
def movedOnCheck (c : Compiler) (quiet : Bool) (v : Nat) : Stmt :=
  .block (.movedOn v)
    (.comment ("`" ++ c.machine.describe v ++ "` enter behavior already completed a transition.") ::
      release quiet ++ [.ret ""]) true

/-- Whether the statement moves along a transition, or asks whether entering a
state led elsewhere. -/
def IsApproach (c : Compiler) (quiet : Bool) (stmt : Stmt) : Prop :=
  stmt.isMove ∨ ∃ v, stmt = c.movedOnCheck quiet v

/-- Entering a state is a call, perhaps with the question behind it. -/
theorem isApproach_enterCall (h : stmt ∈ c.enterCall quiet v) : c.IsApproach quiet stmt := by
  rw [enterCall, List.mem_cons] at h
  rcases h with rfl | h
  · exact .inl rfl
  · split at h
    · exact .inr ⟨v, List.mem_singleton.mp h⟩
    · simp at h

/-- Entering towards a target is enter calls, with the questions behind them, and remarks. -/
theorem isApproach_enterTowards {path : Path} (h : stmt ∈ c.enterTowards quiet path) :
    c.IsApproach quiet stmt := by
  rw [enterTowards] at h
  split at h
  · rw [List.mem_singleton.mp h]
    exact .inl rfl
  · rw [List.mem_append, List.mem_flatMap, List.mem_singleton] at h
    rcases h with ⟨v, -, h⟩ | rfl
    · split at h
      · exact isApproach_enterCall h
      · rw [List.mem_singleton.mp h]
        exact .inl rfl
    · exact .inl rfl

/-- A transition compiles only if its path is found. -/
theorem hasPath_of_departure (hfault : (c.departure check s t).fault = none) :
    c.machine.hasPath s t := by
  by_contra hnone
  unfold departure at hfault
  rw [if_neg hnone] at hfault
  cases hfault

/-- Without a fault, the first step of a transition is a remark and calls that leave states. -/
theorem isMove_departure (hfault : (c.departure check s t).fault = none)
    (h : stmt ∈ (c.departure check s t).code) : stmt.isMove := by
  have hpath := hasPath_of_departure hfault
  unfold departure at hfault h
  rw [if_pos hpath] at hfault h
  split at h
  · next hleave =>
    rw [if_pos hleave, fault_andThen, fault_emit, Option.none_or] at hfault
    rw [code_andThen (fault_emit _), code_emit, List.singleton_append, List.mem_cons] at h
    rcases h with rfl | h
    · rfl
    · rcases leave_cases hfault with ⟨v, -, hcode⟩ | ⟨-, hcode⟩
      · rw [hcode, List.mem_singleton] at h
        rw [h]
        rfl
      · rw [hcode, List.mem_singleton] at h
        rw [h]
        rfl
  · rw [List.mem_singleton.mp h]
    rfl

/-- A transition that compiles moves towards its target and then concludes. -/
theorem code_transitionSteps {inline : Nat → Draft}
    (hfault : (c.transitionSteps inline quiet check b t).fault = none) :
    (c.conclude inline quiet t).fault = none ∧ ∃ front, (∀ stmt ∈ front, c.IsApproach quiet stmt) ∧
      (c.transitionSteps inline quiet check b t).code =
        front ++ (c.conclude inline quiet t).code := by
  simp only [transitionSteps, fault_andThen, fault_emit, Option.none_or,
    Option.or_eq_none_iff] at hfault
  obtain ⟨hdepart, haction, hconclude⟩ := hfault
  rw [transitionSteps, code_andThen hdepart, code_andThen (fault_emit _), code_andThen haction,
    code_andThen (fault_emit _), code_emit, code_emit, ← List.append_assoc, ← List.append_assoc,
    ← List.append_assoc]
  refine ⟨hconclude, _, fun stmt hstmt => ?_, rfl⟩
  simp only [List.mem_append, List.mem_cons, List.not_mem_nil, or_false] at hstmt
  rcases hstmt with ((hstmt | rfl | rfl) | hstmt) | rfl | rfl | hstmt
  · exact .inl (isMove_departure hdepart hstmt)
  · exact .inl rfl
  · exact .inl rfl
  · rcases code_action haction with hcode | ⟨code, hcode⟩
    · simp [hcode] at hstmt
    · rw [hcode, List.mem_cons, List.mem_singleton] at hstmt
      rcases hstmt with rfl | rfl
      · exact .inl rfl
      · exact .inl rfl
  · exact .inl rfl
  · exact .inl rfl
  · exact isApproach_enterTowards hstmt

/-- The steps of a transition compile only if its path is found. -/
theorem hasPath_of_transitionSteps {inline : Nat → Draft}
    (hfault : (c.transitionSteps inline quiet check b t).fault = none) :
    c.machine.hasPath b.owner t := by
  rw [transitionSteps, fault_andThen, Option.or_eq_none_iff] at hfault
  exact hasPath_of_departure hfault.1

/-- A transition ends in a state, calls the function of a shared pseudo-state, or
goes on in place. -/
theorem conclude_cases (c : Compiler) (inline : Nat → Draft) (quiet : Bool) (t : Nat) :
    (c.machine.completion t = none ∧ c.conclude inline quiet t = emit (completed quiet t)) ∨
      ∃ p, c.machine.completion t = some p ∧
        (c.plan.isShared p = true ∧ c.conclude inline quiet t = emit (proceedTo p) ∨
          c.plan.isShared p = false ∧ c.conclude inline quiet t = inline p) := by
  rw [conclude]
  cases hp : c.machine.completion t with
  | none => exact .inl ⟨rfl, rfl⟩
  | some p =>
    refine .inr ⟨p, rfl, ?_⟩
    cases hshared : c.plan.isShared p with
    | true => exact .inl ⟨rfl, by simp [hshared]⟩
    | false => exact .inr ⟨rfl, by simp [hshared]⟩

/-- The transitions of a pseudo-state. -/
def outgoing (c : Compiler) (p : Nat) : List Behavior :=
  (c.machine.behaviorsOf p).filter (·.hasTransition)

/-- A pseudo-state that compiles in place holds all its transitions in order. -/
theorem code_inline {levels : Nat} (hfault : (c.inline quiet (levels + 1) p).fault = none) :
    (∀ b ∈ c.outgoing p, (c.transitionWith (c.inline quiet levels) quiet true b).fault = none) ∧
      (c.inline quiet (levels + 1) p).code = [.inlined p ((c.outgoing p).flatMap fun b =>
        (c.transitionWith (c.inline quiet levels) quiet true b).code ++ [.gap])] := by
  have heach := fault_each_eq_none.mp (show (each (c.outgoing p) _).fault = none from hfault)
  have hfaults : ∀ b ∈ c.outgoing p, (c.transitionWith (c.inline quiet levels) quiet true b).fault =
      none := by
    intro b hb
    have hfaultb := heach b hb
    rwa [fault_andThen, fault_emit, Option.or_none] at hfaultb
  refine ⟨hfaults, ?_⟩
  change [Stmt.inlined p (each (c.outgoing p) _).code] = _
  rw [code_each heach, List.flatMap_congr fun b hb => code_andThen (hfaults b hb)]
  rfl

/-- The code of one behavior of a state on a trigger. -/
def behaviorDraft (c : Compiler) (v : Nat) (trigger : String) (b : Behavior) : Draft :=
  if b.hasTransition then c.transition (c.isQuiet v trigger) true 0 b
  else c.reaction trigger (c.isQuiet v trigger) b

/-- The code of all behaviors of a state on a trigger. -/
def behaviorsCode (c : Compiler) (v : Nat) (trigger : String) : List Stmt :=
  (c.machine.behaviorsOn v trigger).flatMap fun b => (c.behaviorDraft v trigger b).code ++ [.gap]

/-- What hands an event on to outer states, in front of the behaviors of a state. -/
def handOn (c : Compiler) (v : Nat) (trigger : String) : List Stmt :=
  if Trigger.isEvent trigger then handOver (c.machine.nextHandler v trigger) trigger else []

/-- The behaviors of a state that compile stand in order behind what hands the event on. -/
theorem code_behaviorsFor (hfault : (c.behaviorsFor v trigger).fault = none) :
    (∀ b ∈ c.machine.behaviorsOn v trigger, (c.behaviorDraft v trigger b).fault = none) ∧
      (c.behaviorsFor v trigger).code = c.handOn v trigger ++ c.behaviorsCode v trigger := by
  have hdraft : c.behaviorsFor v trigger =
      (emit (c.handOn v trigger) >> each (c.machine.behaviorsOn v trigger) fun b =>
        c.behaviorDraft v trigger b >> emit [.gap]) := by
    unfold behaviorsFor handOn
    cases hevent : Trigger.isEvent trigger <;> simp [behaviorDraft, isQuiet, hevent]
  rw [hdraft, fault_andThen, fault_emit, Option.none_or, fault_each_eq_none] at hfault
  have hfaults : ∀ b ∈ c.machine.behaviorsOn v trigger,
      (c.behaviorDraft v trigger b).fault = none := by
    intro b hb
    have hfaultb := hfault b hb
    rwa [fault_andThen, fault_emit, Option.or_none] at hfaultb
  refine ⟨hfaults, ?_⟩
  rw [hdraft, code_andThen (fault_emit _), code_emit, code_each hfault,
    List.flatMap_congr fun b hb => code_andThen (hfaults b hb)]
  rfl

end Compiler

end Statechart
