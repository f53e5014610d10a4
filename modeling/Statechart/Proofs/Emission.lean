import Statechart.Proofs.Routines
import Statechart.Proofs.TransitionCode

/-!
# What is emitted

Every statement in the code of a handler has a reason in the machine: a state is entered because it
lies on the path of a transition, an event is handed on to the nearest outer state that handles it,
and so on. The reasons are given once, for every statement at any depth, so what holds of all
emitted code is shown by going through them. They are given for code that compiled, of any machine.
-/

namespace Statechart

open Stmt

/-- Whether the statement needs no reason: remarks, code of the user, what ends a function, and the
blocks of behaviors. -/
@[simp] def Stmt.isNeutral : Stmt → Bool
  | .line _ | .comment _ | .userCode _ | .gap | .stopEvent _ | .ret _ | .inlined .. => true
  | .block (.behavior ..) _ closed | .block .consumed _ closed => closed
  | _ => false

namespace Draft

variable {α : Type} {good : Stmt → Prop} {first second body : Draft} {code : List Stmt}
  {head : Head}

/-- If the draft has no fault, all its statements at any depth are good. -/
def Throughout (good : Stmt → Prop) (draft : Draft) : Prop :=
  draft.fault = none → ∀ stmt ∈ partsAll draft.code, good stmt

namespace Throughout

/-- Plain code is good throughout if all its statements are. -/
theorem emit (h : ∀ stmt ∈ partsAll code, good stmt) : (emit code).Throughout good := fun _ => h

/-- A fault leaves nothing to show. -/
theorem fail (fault : Fault) : (fail fault).Throughout good := fun h => by simp at h

/-- One draft after another is good throughout if both are. -/
theorem andThen (hfirst : first.Throughout good) (hsecond : second.Throughout good) :
    (first >> second).Throughout good := by
  intro hfault
  rw [fault_andThen, Option.or_eq_none_iff] at hfault
  rw [code_andThen hfault.1, partsAll_append, List.forall_mem_append]
  exact ⟨hfirst hfault.1, hsecond hfault.2⟩

/-- Going on with a value is good throughout if it is for every value that may be there. -/
theorem given {value : Except Fault α} {rest : α → Draft}
    (h : ∀ a, value = .ok a → (rest a).Throughout good) :
    (given value rest).Throughout good := by
  cases value with
  | error fault => exact fail fault
  | ok a => exact h a rfl

/-- Drafts for elements are good throughout if all of them are. -/
theorem each {xs : List α} {f : α → Draft} (h : ∀ x ∈ xs, (f x).Throughout good) :
    (each xs f).Throughout good := by
  intro hfault
  rw [fault_each_eq_none] at hfault
  rw [code_each hfault, partsAll_eq_flatMap, List.flatMap_assoc, List.forall_mem_flatMap]
  intro x hx
  rw [← partsAll_eq_flatMap]
  exact h x hx (hfault x hx)

/-- A block is good throughout if its body is and the closed block itself is good. -/
theorem block (hhead : ∀ code, good (.block head code true)) (hbody : body.Throughout good) :
    (block head body).Throughout good := by
  intro hfault
  rw [fault_block] at hfault
  rw [code_block hfault, partsAll_cons, parts_block, partsAll_nil, List.append_nil,
    List.forall_mem_cons]
  exact ⟨hhead _, hbody hfault⟩

end Throughout

end Draft

namespace Compiler

open Draft

variable {c : Compiler} {leads : Behavior → Prop} {holds : Nat → Prop}

/-- The states that are entered: the root at the start, and those on the way to the
target of a transition. -/
inductive Enters (c : Compiler) (leads : Behavior → Prop) : Nat → Prop
  | root : Enters c leads Machine.root
  | towards {b : Behavior} {t v : Nat} (hb : leads b) (ht : b.target = some t)
      (hv : v ∈ (c.machine.path b.owner t).enters) (hstate : (c.machine.kind v).isState) :
        Enters c leads v

/-- The reasons for statements in code that holds the transitions of some behaviors and the
functions of some vertices. -/
inductive Emits (c : Compiler) (leads : Behavior → Prop) (holds : Nat → Prop) : Stmt → Prop
  | neutral {stmt : Stmt} (h : stmt.isNeutral) : Emits c leads holds stmt
  | enter {v : Nat} (hv : c.Enters leads v) : Emits c leads holds (.enter v)
  | movedOn {v : Nat} (hv : c.Enters leads v) (body : List Stmt) :
      Emits c leads holds (.block (.movedOn v) body true)
  | exit {b : Behavior} {t v : Nat} (hb : leads b) (ht : b.target = some t)
      (hv : c.machine.directExit b.owner (c.machine.path b.owner t) = .ok (true, v)) :
      Emits c leads holds (.exit v)
  | exitUpTo {b : Behavior} {t : Nat} (hb : leads b) (ht : b.target = some t)
      (hstate : (c.machine.kind (c.machine.path b.owner t).lca).isState) :
      Emits c leads holds (.exitUpTo (c.machine.path b.owner t).lca)
  | settle {b : Behavior} {t : Nat} (hb : leads b) (ht : b.target = some t)
      (hend : c.machine.completion t = none) :
      Emits c leads holds (.settle t)
  | proceed {b : Behavior} {t p : Nat} (hb : leads b) (ht : b.target = some t)
      (hp : c.machine.completion t = some p) (hshared : c.plan.isShared p) :
        Emits c leads holds (.proceed p)
  | setExit {v : Nat} (hv : holds v) : Emits c leads holds (.setExit v)
  | setOuterExit {v p : Nat} (hv : holds v) (hp : c.machine.holder v = some p)
      (hstate : (c.machine.kind p).isState) : Emits c leads holds (.setExit p)
  | setHandler {v : Nat} {event : String} (hv : holds v) (he : event ∈ c.machine.eventsOf v) :
      Emits c leads holds (.setHandler event v)
  | restoreHandler {v : Nat} {event : String} (hv : holds v) (he : event ∈ c.machine.eventsOf v) :
      Emits c leads holds (.restoreHandler event (c.machine.nextHandler v event))
  | passTo {v a : Nat} {event : String} (hv : holds v) (he : Trigger.isEvent event)
      (ha : c.machine.nextHandler v event = some a) : Emits c leads holds (.passTo a event)

/-- Compiling follows transitions from some vertices to others: those behaviors of the
vertices lead somewhere whose paths are found, and the pseudo-states that they go on with are
among the vertices. -/
structure Follows (c : Compiler) (among : Nat → Prop) (leads : Behavior → Prop) : Prop where
  first : ∀ b ∈ c.machine.behaviors, among b.owner →
    (∀ t, b.target = some t → c.machine.hasPath b.owner t) → leads b
  next : ∀ b t p, leads b → b.target = some t → c.machine.completion t = some p → among p

/-- Compiling follows any transitions from any vertices. -/
theorem follows_any (c : Compiler) : c.Follows (fun _ => True) fun _ => True :=
  ⟨fun _ _ _ _ => trivial, fun _ _ _ _ _ _ => trivial⟩

variable {among : Nat → Prop} {quiet check : Bool} {b : Behavior} {p t v : Nat} {trigger : String}

/-- Neutral statements without anything inside them need no reason. -/
theorem emits_of_isNeutral {code : List Stmt} (h : ∀ stmt ∈ partsAll code, stmt.isNeutral) :
    ∀ stmt ∈ partsAll code, c.Emits leads holds stmt := fun stmt hstmt => .neutral (h stmt hstmt)

/-- A behavior is emitted as its body is. -/
theorem emits_behaviorBlock {body : Unit → Draft} (h : (body ()).Throughout (c.Emits leads holds)) :
    (c.behaviorBlock b body).Throughout (c.Emits leads holds) := by
  refine .andThen (.emit (emits_of_isNeutral (by simp [parts, isNeutral])))
    (.given fun guard _ => ?_)
  exact .block (fun _ => .neutral rfl) h

/-- The action of a behavior is code of the user. -/
theorem emits_action (c : Compiler) (b : Behavior) :
    (c.action b).Throughout (c.Emits leads holds) := by
  unfold action
  split
  · exact .given fun code _ => .emit (emits_of_isNeutral (by simp [parts, isNeutral]))
  · exact .emit (by simp)

/-- What keeps an event from outer states needs no reason. -/
theorem isNeutral_release (quiet : Bool) : ∀ stmt ∈ partsAll (release quiet), stmt.isNeutral := by
  cases quiet <;> simp [release, nothingToStop, parts, isNeutral]

/-- A state that is entered is called and perhaps asked about. -/
theorem emits_enterCall (quiet : Bool) (hv : c.Enters leads v) :
    ∀ stmt ∈ partsAll (c.enterCall quiet v), c.Emits leads holds stmt := by
  have hrelease : ∀ stmt ∈ partsAll (release quiet), c.Emits leads holds stmt :=
    emits_of_isNeutral (isNeutral_release quiet)
  unfold enterCall
  split
  · simp only [List.cons_append, partsAll_cons, partsAll_append, partsAll_nil, parts,
      List.append_nil, List.forall_mem_append, List.forall_mem_cons, List.not_mem_nil,
      false_implies, implies_true, true_and, and_true]
    exact ⟨.enter hv, .movedOn hv _, .neutral rfl, hrelease, .neutral rfl⟩
  · simpa [parts] using .enter hv

/-- What is entered on the way to a target is the states on the path. -/
theorem emits_enterTowards (quiet : Bool) (hb : leads b) (ht : b.target = some t) :
    ∀ stmt ∈ partsAll (c.enterTowards quiet (c.machine.path b.owner t)),
      c.Emits leads holds stmt := by
  unfold enterTowards
  split
  · exact emits_of_isNeutral (by simp [parts, isNeutral])
  · rw [partsAll_append, List.forall_mem_append]
    refine ⟨?_, emits_of_isNeutral (by simp [parts, isNeutral])⟩
    rw [partsAll_eq_flatMap, List.flatMap_assoc, List.forall_mem_flatMap]
    intro v hv
    rw [← partsAll_eq_flatMap]
    split
    · next hstate => exact emits_enterCall quiet (.towards hb ht hv hstate)
    · exact emits_of_isNeutral (by simp [parts, isNeutral])

/-- States are left by one call of an exit function or up to the least common ancestor. -/
theorem emits_leave (hb : leads b) (ht : b.target = some t) :
    (c.leave b.owner (c.machine.path b.owner t)).Throughout (c.Emits leads holds) := by
  intro hfault
  rcases leave_cases hfault with ⟨v, hdirect, hcode⟩ | ⟨hstate, hcode⟩
  · simpa [hcode, parts] using .exit hb ht hdirect
  · simpa [hcode, parts] using .exitUpTo hb ht hstate

/-- The first step of a transition is a remark and what leaves states. -/
theorem emits_departure (check : Bool) (hb : leads b) (ht : b.target = some t) :
    (c.departure check b.owner t).Throughout (c.Emits leads holds) := by
  unfold departure
  dsimp only
  split
  · split
    · exact .andThen (.emit (emits_of_isNeutral (by simp [parts, isNeutral]))) (emits_leave hb ht)
    · exact .emit (emits_of_isNeutral (by simp [parts, isNeutral]))
  · exact .fail _

/-- A transition ends in its target, calls a shared function, or goes on as its
pseudo-state does in place. -/
theorem emits_conclude {inline : Nat → Draft} (h : c.Follows among leads)
    (hinline : ∀ p, among p → (inline p).Throughout (c.Emits leads holds)) (hb : leads b)
    (ht : b.target = some t) :
    (c.conclude inline quiet t).Throughout (c.Emits leads holds) := by
  rcases conclude_cases c inline quiet t with ⟨hend, hdraft⟩ |
    ⟨p, hp, ⟨hshared, hdraft⟩ | ⟨-, hdraft⟩⟩
  · rw [hdraft]
    refine .emit ?_
    rw [completed, partsAll_append, partsAll_append, List.forall_mem_append, List.forall_mem_append]
    refine ⟨⟨?_, emits_of_isNeutral (isNeutral_release quiet)⟩,
      emits_of_isNeutral (by simp [parts, isNeutral])⟩
    simpa [parts] using ⟨.neutral rfl, .settle hb ht hend⟩
  · rw [hdraft]
    refine .emit ?_
    simpa [proceedTo, parts] using ⟨.neutral rfl, .proceed hb ht hp hshared, .neutral rfl⟩
  · rw [hdraft]
    exact hinline p (h.next b t p hb ht hp)

/-- The steps of a transition have their reasons in its path. -/
theorem emits_transitionWith {inline : Nat → Draft} (h : c.Follows among leads)
    (hinline : ∀ p, among p → (inline p).Throughout (c.Emits leads holds))
    (hb : (∀ t, b.target = some t → c.machine.hasPath b.owner t) → leads b) :
    (c.transitionWith inline quiet check b).Throughout (c.Emits leads holds) := by
  unfold transitionWith
  split
  · exact .fail _
  · next t ht =>
    refine emits_behaviorBlock fun hfault => ?_
    have hleads : leads b := hb fun t' ht' =>
      Option.some.inj (ht.symm.trans ht') ▸ hasPath_of_transitionSteps hfault
    have henter : ∀ stmt ∈ partsAll (c.enterTowards quiet (c.machine.path b.owner t)),
        c.Emits leads holds stmt :=
      emits_enterTowards quiet hleads ht
    refine Throughout.andThen (emits_departure check hleads ht)
      (.andThen ?_ (.andThen (emits_action c b)
      (.andThen (.emit ?_) (emits_conclude h hinline hleads ht)))) hfault
    · exact .emit (emits_of_isNeutral (by simp [parts, isNeutral]))
    · simpa [parts] using ⟨.neutral rfl, .neutral rfl, henter⟩

/-- The transitions of pseudo-states in place, however deep, have their reasons in their paths. -/
theorem emits_inline (h : c.Follows among leads) (quiet : Bool) (levels p : Nat) (hp : among p) :
    (c.inline quiet levels p).Throughout (c.Emits leads holds) := by
  induction levels generalizing p with
  | zero => exact .fail _
  | succ levels ih =>
    have hbody : (each (c.outgoing p) fun b =>
        c.transitionWith (c.inline quiet levels) quiet true b >> emit [.gap]).Throughout
          (c.Emits leads holds) := by
      refine .each fun b hb => .andThen (emits_transitionWith h ih (h.first b ?_ ?_)) ?_
      · exact (List.mem_filter.mp (List.mem_filter.mp hb).1).1
      · rwa [beq_iff_eq.mp (List.mem_filter.mp (List.mem_filter.mp hb).1).2]
      · exact .emit (emits_of_isNeutral (by simp [parts, isNeutral]))
    intro hfault
    change ∀ stmt ∈ partsAll [.inlined p _], _
    rw [partsAll_cons, parts_inlined, partsAll_nil, List.append_nil, List.forall_mem_cons]
    exact ⟨.neutral rfl, hbody hfault⟩

/-- The declaration of the flag that an action sets needs no reason. -/
theorem isNeutral_declareFlag (trigger : String) (quiet : Bool) :
    ∀ stmt ∈ partsAll (declareFlag trigger quiet), stmt.isNeutral := by
  intro stmt hstmt
  unfold declareFlag at hstmt
  rw [partsAll_append, List.mem_append, partsAll_cons, partsAll_cons, partsAll_nil,
    List.append_nil] at hstmt
  rcases hstmt with hstmt | hstmt
  · split at hstmt <;>
      simp only [partsAll_cons, partsAll_nil, parts, List.append_nil, List.mem_singleton,
      List.not_mem_nil] at hstmt
    rw [hstmt]
    rfl
  · simp only [parts, List.mem_append, List.mem_singleton] at hstmt
    rcases hstmt with rfl | rfl <;> rfl

/-- A behavior without a transition needs no reason. -/
theorem emits_reaction (c : Compiler) (trigger : String) (quiet : Bool) (b : Behavior) :
    (c.reaction trigger quiet b).Throughout (c.Emits leads holds) := by
  refine .given fun flagged _ =>
    emits_behaviorBlock (.andThen (.emit ?_) (.andThen (emits_action c b) (.emit ?_)))
  · rw [partsAll_append, List.forall_mem_append]
    refine ⟨?_, emits_of_isNeutral (by simp [parts, isNeutral])⟩
    split
    · exact emits_of_isNeutral (isNeutral_declareFlag trigger quiet)
    · simp
  · split
    · refine emits_of_isNeutral ?_
      unfold consume nothingToStop
      cases quiet <;> cases flagged
      · by_cases htrigger : trigger = Trigger.always <;> simp [htrigger, parts, isNeutral]
      all_goals simp [parts, isNeutral]
    · simp

/-- The behaviors of a vertex on a trigger have their reasons in the vertex and in the
paths of transitions. -/
theorem emits_behaviorsFor (h : c.Follows among leads) (hamong : among v) (hv : holds v)
    (trigger : String) :
    (c.behaviorsFor v trigger).Throughout (c.Emits leads holds) := by
  refine .andThen (.emit ?_) (.each fun b hb => .andThen ?_ ?_)
  · split
    · next hevent =>
      unfold handOver
      split
      · exact emits_of_isNeutral (by simp [parts, isNeutral])
      · next a hnext =>
        simpa [parts] using ⟨.neutral rfl, .passTo hv hevent hnext, .neutral rfl⟩
    · simp
  · obtain ⟨hmem, howner⟩ := List.mem_filter.mp (List.mem_filter.mp hb).1
    split
    · exact emits_transitionWith h (emits_inline h _ _)
        (h.first b hmem (by rwa [beq_iff_eq.mp howner]))
    · exact emits_reaction c trigger _ b
  · exact .emit (emits_of_isNeutral (by simp [parts, isNeutral]))

/-- Taking over from an outer state sets the slots of the vertex. -/
theorem emits_takeOver (hv : holds v) :
    ∀ stmt ∈ partsAll (c.takeOver v), c.Emits leads holds stmt := by
  have hhandlers : ∀ stmt ∈ partsAll ((c.machine.eventsOf v).map fun event => .setHandler event v),
      c.Emits leads holds stmt := by
    rw [partsAll_eq_flatMap, List.flatMap_map, List.forall_mem_flatMap]
    intro event he
    simpa [parts] using .setHandler hv he
  rw [takeOver, partsAll_append, partsAll_append, List.forall_mem_append, List.forall_mem_append]
  refine ⟨⟨?_, hhandlers⟩, emits_of_isNeutral (by simp [parts, isNeutral])⟩
  simpa [parts] using ⟨.neutral rfl, .setExit hv⟩

/-- Handing back to the outer state sets the same slots. -/
theorem emits_handBack (hv : holds v) : (c.handBack v).Throughout (c.Emits leads holds) := by
  unfold handBack
  split
  · exact .emit (emits_of_isNeutral (by simp [parts, isNeutral]))
  · next p hp =>
    split
    · next hstate =>
      refine .emit ?_
      rw [partsAll_append, List.forall_mem_append]
      refine ⟨by simpa [parts] using ⟨.neutral rfl, .setOuterExit hv hp hstate⟩, ?_⟩
      rw [partsAll_eq_flatMap, List.flatMap_map, List.forall_mem_flatMap]
      intro event he
      simpa [parts] using .restoreHandler hv he
    · exact .fail _

/-- Whether the vertex of a routine is among the given ones; one that is not a pseudo-state holds
what the routine refers to. -/
def OfVertex (among holds : Nat → Prop) : Routine → Prop
  | .enter v | .exit v | .event v _ => among v ∧ holds v
  | .shared p => among p

/-- The statements in the function of a routine have their reasons. -/
theorem emits_routineBody (h : c.Follows among leads) {r : Routine} (hr : OfVertex among holds r) :
    (c.routineBody r).Throughout (c.Emits leads holds) := by
  cases r with
  | enter v => exact .andThen (.emit (emits_takeOver hr.2)) (emits_behaviorsFor h hr.1 hr.2 _)
  | exit v => exact .andThen (emits_behaviorsFor h hr.1 hr.2 _) (emits_handBack hr.2)
  | event v event => exact emits_behaviorsFor h hr.1 hr.2 event
  | shared p => exact emits_inline h _ _ p hr

/-- Any routine will do where nothing is asked of vertices. -/
theorem ofVertex_any (r : Routine) : OfVertex (fun _ => True) (fun _ => True) r := by
  cases r with
  | shared p => trivial
  | _ => exact ⟨trivial, trivial⟩

/-- The statements in the start function have their reasons. -/
theorem emits_start (h : c.Follows among leads)
    (hstart : ∀ i, c.machine.initialOf Machine.root = some i →
      leads { owner := Machine.root, target := some i }) :
    c.start.Throughout (c.Emits leads holds) := by
  refine .andThen (.emit (emits_enterCall true .root)) ?_
  unfold startTransition
  split
  · exact .emit (emits_of_isNeutral (by simp [parts, isNeutral]))
  · next i hi => exact emits_transitionWith h (emits_inline h _ _) fun _ => hstart i hi

end Compiler

end Statechart
