import Statechart.Compile.Handler
import Statechart.Proofs.Drafts

/-!
# The shape of compiled behaviors

What the pieces of a handler are compiled to if there is no fault. A behavior is a block between
comments, whether it leads somewhere or not, and the behaviors of a state on a trigger are such
blocks with nothing between them that touches a slot other than the one for the event at hand.
-/

namespace Statechart

/-- Whether the statement is a comment, a gap, or hands the event at hand on. -/
def Stmt.isAside : Stmt → Bool
  | .comment _ | .gap | .passTo .. => true
  | _ => false

/-- Whether the statement belongs to a behavior without a transition. -/
def Stmt.isReactive : Stmt → Bool
  | .comment _ | .gap | .userCode _ | .line _ | .stopEvent _
  | .block .consumed [.stopEvent _] _ => true
  | _ => false

namespace Compiler

open Draft

variable {c : Compiler} {quiet check : Bool} {b : Behavior} {s t v : Nat} {trigger : String}

/-- Without a fault, leaving states is either one call of an exit function or leaving them up to the
least common ancestor, which is a state. -/
theorem leave_cases {path : Path} (hfault : (c.leave s path).fault = none) :
    (∃ v, c.machine.directExit s path = .ok (true, v) ∧ (c.leave s path).code = [.exit v]) ∨
      (c.machine.kind path.lca).isState ∧ (c.leave s path).code = [.exitUpTo path.lca] := by
  cases hdirect : c.machine.directExit s path with
  | error invariant => simp [leave, hdirect] at hfault
  | ok result =>
    obtain ⟨direct, v⟩ := result
    cases direct with
    | true => exact .inl ⟨v, rfl, by simp [leave, hdirect]⟩
    | false =>
      by_cases hstate : (c.machine.kind path.lca).isState
      · exact .inr ⟨hstate, by simp [leave, hdirect, hstate]⟩
      · simp [leave, hdirect, hstate] at hfault

/-- The code of a behavior: comments, and a block with its guard and body. -/
def behaviorCode (c : Compiler) (b : Behavior) (guard : Option String) (body : List Stmt) :
    List Stmt :=
  [.comment (c.machine.describe b.owner ++ " behavior"),
    .comment ("uml: " ++ c.machine.diagramLine b), .block (.behavior b guard) body true]

/-- The code of a behavior is its block with asides before it. -/
theorem mem_behaviorCode {stmt : Stmt} {guard : Option String} {body : List Stmt}
    (h : stmt ∈ c.behaviorCode b guard body) :
    stmt.isAside ∨ stmt = .block (.behavior b guard) body true := by
  simp only [behaviorCode, List.mem_cons, List.not_mem_nil, or_false] at h
  rcases h with rfl | rfl | rfl
  · exact .inl rfl
  · exact .inl rfl
  · exact .inr rfl

/-- A behavior is compiled with a guard if it has one. -/
theorem isSome_of_guardOf {guard : Option String} (h : c.guardOf b = .ok guard) :
    guard.isSome = b.hasGuard := by
  rw [guardOf] at h
  split at h
  · next hguard =>
    cases hcode : c.expand b (Text.trim (b.guard.getD "")) with
    | error fault => simp [hcode, Except.map] at h
    | ok code =>
      obtain rfl : some code = guard := by simpa [hcode, Except.map] using h
      exact hguard.symm
  · next hguard =>
    obtain rfl := Except.ok.inj h
    exact (Bool.eq_false_iff.mpr hguard).symm

/-- Without a fault, a behavior is compiled to a block with its guard and its body. -/
theorem code_behaviorBlock {body : Unit → Draft} (hfault : (c.behaviorBlock b body).fault = none) :
    (body ()).fault = none ∧ ∃ guard, guard.isSome = b.hasGuard ∧
      (c.behaviorBlock b body).code = c.behaviorCode b guard (body ()).code := by
  rw [behaviorBlock] at hfault ⊢
  cases hguard : c.guardOf b with
  | error fault => simp [hguard] at hfault
  | ok guard =>
    simp only [hguard, given_ok, fault_andThen, fault_emit, Option.none_or, fault_block] at hfault
    refine ⟨hfault, guard, isSome_of_guardOf hguard, ?_⟩
    rw [code_andThen (fault_emit _), given_ok, code_block hfault]
    rfl

/-- A transition that compiles is one block with the steps that lead to the target. -/
theorem code_transitionWith {inline : Nat → Draft} (ht : b.target = some t)
    (hfault : (c.transitionWith inline quiet check b).fault = none) :
    (c.transitionSteps inline quiet check b t).fault = none ∧
      ∃ guard, guard.isSome = b.hasGuard ∧ (c.transitionWith inline quiet check b).code =
        c.behaviorCode b guard (c.transitionSteps inline quiet check b t).code := by
  simp only [transitionWith, ht] at hfault ⊢
  exact code_behaviorBlock hfault

/-- Without a fault, the action of a behavior is code of the user. -/
theorem code_action (hfault : (c.action b).fault = none) :
    (c.action b).code = [] ∨ ∃ code, (c.action b).code = [.userCode code, .gap] := by
  rw [action] at hfault ⊢
  by_cases haction : b.hasAction
  · rw [if_pos haction] at hfault ⊢
    cases hcode : c.expand b (b.action.getD "") with
    | error fault => simp [hcode] at hfault
    | ok code => exact .inr ⟨code, rfl⟩
  · exact .inl (by rw [if_neg haction])

/-- What decides whether outer states get to handle the event keeps it from them at most. -/
theorem isReactive_consume (trigger : String) (quiet flagged : Bool) :
    ∀ stmt ∈ consume trigger quiet flagged, stmt.isReactive := by
  unfold consume nothingToStop
  cases quiet <;> cases flagged
  · by_cases htrigger : trigger = Trigger.always <;> simp [htrigger, Stmt.isReactive]
  all_goals simp [Stmt.isReactive]

/-- A reaction that compiles is one block, which at most keeps the event from outer states. -/
theorem code_reaction (hfault : (c.reaction trigger quiet b).fault = none) :
    ∃ guard body, (∀ stmt ∈ body, stmt.isReactive) ∧
      (c.reaction trigger quiet b).code = c.behaviorCode b guard body := by
  rw [reaction] at hfault ⊢
  cases hflag : (if Trigger.isEvent trigger then c.usesFlag b else .ok false) with
  | error fault => simp [hflag] at hfault
  | ok flagged =>
    simp only [hflag, given_ok] at hfault ⊢
    obtain ⟨hbody, guard, -, hcode⟩ := code_behaviorBlock hfault
    simp only [fault_andThen, fault_emit, Option.none_or, Option.or_none] at hbody
    refine ⟨guard, _, fun stmt hstmt => ?_, hcode⟩
    rw [code_andThen (fault_emit _), code_andThen hbody, code_emit, code_emit, List.mem_append,
      List.mem_append, List.mem_append, List.mem_singleton] at hstmt
    rcases hstmt with (hstmt | rfl) | hstmt | hstmt
    · split at hstmt
      · unfold declareFlag at hstmt
        split at hstmt <;>
          simp only [List.mem_append, List.mem_cons, List.not_mem_nil, or_false, false_or] at hstmt
        · rcases hstmt with rfl | rfl | rfl <;> rfl
        · rcases hstmt with rfl | rfl <;> rfl
      · simp at hstmt
    · rfl
    · rcases code_action hbody with hcode | ⟨code, hcode⟩
      · simp [hcode] at hstmt
      · rw [hcode, List.mem_cons, List.mem_singleton] at hstmt
        rcases hstmt with rfl | rfl <;> rfl
    · split at hstmt
      · exact isReactive_consume trigger quiet flagged stmt hstmt
      · simp at hstmt

/-- Whether no outer state handles the trigger, so that it need not be kept from them. -/
def isQuiet (c : Compiler) (v : Nat) (trigger : String) : Bool :=
  (if Trigger.isEvent trigger then c.machine.nextHandler v trigger else none).isNone

/-- The behaviors of a state on a trigger are compiled to blocks with asides between them; the block
of a behavior that leads somewhere holds the steps that lead there. -/
theorem mem_code_behaviorsFor {stmt : Stmt} (hfault : (c.behaviorsFor v trigger).fault = none)
    (h : stmt ∈ (c.behaviorsFor v trigger).code) :
    stmt.isAside ∨ ∃ b ∈ c.machine.behaviorsOn v trigger, ∃ guard body,
      stmt = .block (.behavior b guard) body true ∧ ∀ t, b.target = some t →
        let steps :=
          c.transitionSteps (c.inline (c.isQuiet v trigger) (c.levelsAt 1))
            (c.isQuiet v trigger) true b t
        steps.fault = none ∧ body = steps.code := by
  rw [behaviorsFor, fault_andThen, fault_emit, Option.none_or, fault_each_eq_none] at hfault
  rw [behaviorsFor, code_andThen (fault_emit _), code_emit, code_each hfault, List.mem_append,
    List.mem_flatMap] at h
  rcases h with h | ⟨b, hb, h⟩
  · left
    split at h
    · cases hnext : c.machine.nextHandler v trigger <;> rw [hnext] at h <;>
        simp only [handOver, List.mem_cons, List.not_mem_nil, or_false] at h <;>
        rcases h with rfl | rfl | rfl <;> rfl
    · simp at h
  · have hfaultb := hfault b hb
    rw [fault_andThen, fault_emit, Option.or_none] at hfaultb
    rw [code_andThen hfaultb, code_emit, List.mem_append, List.mem_singleton] at h
    rcases h with h | rfl
    · split at hfaultb
      · next hleads =>
        obtain ⟨t, ht⟩ := Option.isSome_iff_exists.mp hleads
        obtain ⟨hsteps, guard, -, hcode⟩ := code_transitionWith ht hfaultb
        rw [if_pos hleads, transition, hcode] at h
        refine (mem_behaviorCode h).imp_right fun hstmt => ⟨b, hb, guard, _, hstmt, ?_⟩
        rintro t' ht'
        obtain rfl : t = t' := Option.some.inj (ht.symm.trans ht')
        exact ⟨hsteps, rfl⟩
      · next hleads =>
        obtain ⟨guard, body, -, hcode⟩ := code_reaction hfaultb
        rw [if_neg hleads, hcode] at h
        refine (mem_behaviorCode h).imp_right fun hstmt => ⟨b, hb, guard, body, hstmt, ?_⟩
        intro t ht
        exact absurd (by simp [Behavior.hasTransition, ht]) hleads
    · exact .inl rfl

end Compiler

end Statechart
