import Mathlib.Logic.Relation
import Statechart.Proofs.Listing
import Statechart.Proofs.Paths
import Statechart.Proofs.Routines
import Statechart.Proofs.Slots
import Statechart.Proofs.TransitionCode

/-!
# A completed transition ends dispatch

While an event is handled, one more slot counts: the handler of the next outer state, which is
called once the handler at hand is done. A handler fills it first, if any outer state handles the
event. Whoever completes a transition has to clear it, unless it cannot have been filled: no outer
state handles the event, or the code belongs to a function that enters a state, whose caller clears
the slot.

The code of a handler is followed along all its paths, into the functions that it calls, up to any
depth of calls. Code of the user is taken to leave the slot alone. A function that enters or leaves
a state may clear the slot but never fills it, and whether a transition was completed inside it is
told by the question behind the call, so only the slot is handed back from there.

The handlers in a file are those of the states that lie in the root.
-/

namespace Statechart

/-- What handling an event depends on: the slot for the handler of the next outer state, and whether
a transition was completed. -/
structure Dispatch where
  slot : Option (Nat × String) := none
  completed : Bool := false
deriving DecidableEq

namespace Dispatch

/-- A function that enters or leaves a state hands back nothing but the slot. -/
def Aside (call : Routine → Dispatch → Dispatch → Prop) (r : Routine) (d d' : Dispatch) : Prop :=
  ∃ after, call r { slot := d.slot } after ∧ d' = { d with slot := after.slot }

/-- What a statement may do, given what the functions may do that it calls. Leaving states up to a
given one calls any number of functions that leave a state. -/
def Act (call : Routine → Dispatch → Dispatch → Prop) (stmt : Stmt) (d d' : Dispatch) : Prop :=
  match stmt with
  | .passTo v event => d' = { d with slot := some (v, event) }
  | .stopEvent _ => d' = { d with slot := none }
  | .settle _ | .block (.movedOn _) _ _ => d' = { d with completed := true }
  | .proceed p => call (.shared p) d d'
  | .enter v => Aside call (.enter v) d d'
  | .exit v => Aside call (.exit v) d d'
  | .exitUpTo _ => Relation.ReflTransGen (fun d d' => ∃ v, Aside call (.exit v) d d') d d'
  | _ => d' = d

/-- What the functions in the code may do, with calls that are nested up to the given depth. -/
def Call (code : List Stmt) : Nat → Routine → Dispatch → Dispatch → Prop
  | 0 => fun _ _ _ => False
  | depth + 1 => fun r d d' => ∃ body closed returned, .block (.routine r) body closed ∈ code ∧
      Runs (Act (Call code depth)) d body d' returned

/-- The slot is as before or clear. -/
def Calms (d d' : Dispatch) : Prop := d'.slot = d.slot ∨ d'.slot = none

/-- No transition was completed, and the slot is clear if no outer state handles the event. -/
structure Ready (quiet : Bool) (d : Dispatch) : Prop where
  pending : d.completed = false
  clear : quiet = true → d.slot = none

/-- The functions that are called never fill the slot, and a shared pseudo-state's function that
completes a transition clears it. -/
structure Obeys (call : Routine → Dispatch → Dispatch → Prop) : Prop where
  calm : ∀ r d d', (∀ v event, r ≠ .event v event) → call r d d' → d.Calms d'
  shared : ∀ p d d', call (.shared p) d d' → d.completed = false → d'.completed = true →
    d'.slot = none

/-- No path through the code fills the slot. A path that falls through has completed no transition,
and the slot is clear on a path that has completed one and returns. -/
structure Closes (call : Routine → Dispatch → Dispatch → Prop) (quiet : Bool) (code : List Stmt) :
    Prop where
  calm : ∀ {d d' returned}, Runs (Act call) d code d' returned → d.Calms d'
  fallen : ∀ {d d'}, Runs (Act call) d code d' false → d.Ready quiet → d'.Ready quiet
  returned : ∀ {d d'}, Runs (Act call) d code d' true → d.Ready quiet → d'.completed = true →
    d'.slot = none

variable {call : Routine → Dispatch → Dispatch → Prop} {quiet : Bool} {d d' d'' : Dispatch}
  {stmt : Stmt} {front code body : List Stmt} {head : Head} {closed : Bool} {p v : Nat}

/-- A slot that stays the same stays calm. -/
theorem Calms.refl (d : Dispatch) : d.Calms d := .inl rfl

/-- Two calm steps are calm. -/
theorem Calms.trans (h : d.Calms d') (h' : d'.Calms d'') : d.Calms d'' := by
  rcases h' with h' | h'
  · rcases h with h | h
    · exact .inl (h'.trans h)
    · exact .inr (h'.trans h)
  · exact .inr h'

/-- A calm step that completes nothing stays ready. -/
theorem Ready.of_calms (h : d.Ready quiet) (hcalm : d.Calms d')
    (hcompleted : d'.completed = d.completed) :
    d'.Ready quiet where
  pending := hcompleted.trans h.pending
  clear hquiet := by
    rcases hcalm with hcalm | hcalm
    · exact hcalm.trans (h.clear hquiet)
    · exact hcalm

/-- Calls that enter or leave a state are calm and complete nothing. -/
theorem Obeys.aside (h : Obeys call) {r : Routine} (hr : ∀ v event, r ≠ .event v event)
    (haside : Aside call r d d') : d.Calms d' ∧ d'.completed = d.completed := by
  obtain ⟨after, hcall, rfl⟩ := haside
  exact ⟨h.calm r { slot := d.slot } after hr hcall, rfl⟩

namespace Closes

/-- A single step closes if it is calm and completes nothing. -/
theorem step (hstep : stmt.isStep)
    (hact : ∀ d d', Act call stmt d d' → d.Calms d' ∧ d'.completed = d.completed) :
    Closes call quiet [stmt] where
  calm h := (hact _ _ ((Runs.step_iff hstep).mp h).1).1
  fallen h hready := by
    obtain ⟨hcalm, hcompleted⟩ := hact _ _ ((Runs.step_iff hstep).mp h).1
    exact hready.of_calms hcalm hcompleted
  returned h := by
    cases ((Runs.step_iff hstep).mp h).2

/-- A single step closes if it does nothing to the slot. -/
theorem idle (hstep : stmt.isStep) (hact : ∀ d d', Act call stmt d d' → d' = d) :
    Closes call quiet [stmt] := by
  refine step hstep fun d d' h => ?_
  obtain rfl := hact d d' h
  exact ⟨.refl _, rfl⟩

/-- No code closes. -/
theorem nil : Closes call quiet [] where
  calm h := by
    obtain ⟨rfl, -⟩ := Runs.nil_iff.mp h
    exact .refl _
  fallen h hready := by
    obtain ⟨rfl, -⟩ := Runs.nil_iff.mp h
    exact hready
  returned h := by
    cases (Runs.nil_iff.mp h).2

/-- Code in two pieces closes if both do. -/
theorem append (hfront : Closes call quiet front) (hcode : Closes call quiet code) :
    Closes call quiet (front ++ code) where
  calm h := by
    rcases h.of_append with ⟨-, h⟩ | ⟨mid, h, h'⟩
    · exact hfront.calm h
    · exact (hfront.calm h).trans (hcode.calm h')
  fallen h hready := by
    rcases h.of_append with ⟨hend, -⟩ | ⟨mid, h, h'⟩
    · cases hend
    · exact hcode.fallen h' (hfront.fallen h hready)
  returned h hready := by
    rcases h.of_append with ⟨-, h⟩ | ⟨mid, h, h'⟩
    · exact hfront.returned h hready
    · exact hcode.returned h' (hfront.fallen h hready)

/-- Code closes if each of its statements does. -/
theorem of_forall (h : ∀ stmt ∈ code, Closes call quiet [stmt]) : Closes call quiet code := by
  induction code with
  | nil => exact nil
  | cons stmt rest ih =>
    rw [List.forall_mem_cons] at h
    exact append h.1 (ih h.2)

/-- Many pieces of code close if each of them does. -/
theorem flatMap {α : Type} {xs : List α} {f : α → List Stmt}
    (h : ∀ x ∈ xs, Closes call quiet (f x)) :
    Closes call quiet (xs.flatMap f) := by
  induction xs with
  | nil => exact nil
  | cons x xs ih =>
    rw [List.forall_mem_cons] at h
    rw [List.flatMap_cons]
    exact append h.1 (ih h.2)

/-- A block closes if its body does, unless the block itself tells of a completed transition. -/
theorem block (hact : ∀ d d', Act call (.block head body closed) d d' → d' = d)
    (hbody : Closes call quiet body) : Closes call quiet [.block head body closed] where
  calm h := by
    rcases Runs.block_iff.mp h with ⟨mid, hmid, hrun⟩ | ⟨-, rfl, -⟩
    · obtain rfl := hact _ _ hmid
      exact hbody.calm hrun
    · exact .refl _
  fallen h hready := by
    rcases Runs.block_iff.mp h with ⟨mid, hmid, hrun⟩ | ⟨-, rfl, -⟩
    · obtain rfl := hact _ _ hmid
      exact hbody.fallen hrun hready
    · exact hready
  returned h hready := by
    rcases Runs.block_iff.mp h with ⟨mid, hmid, hrun⟩ | ⟨-, -, hend⟩
    · obtain rfl := hact _ _ hmid
      exact hbody.returned hrun hready
    · cases hend

/-- A pseudo-state in place closes if its transitions do. -/
theorem inlined (hbody : Closes call quiet body) : Closes call quiet [.inlined p body] where
  calm h := hbody.calm (Runs.inlined_iff.mp h)
  fallen h := hbody.fallen (Runs.inlined_iff.mp h)
  returned h := hbody.returned (Runs.inlined_iff.mp h)

end Closes

end Dispatch

namespace Compiler

open Draft Dispatch

variable {c : Compiler} {call : Routine → Dispatch → Dispatch → Prop} {quiet check : Bool}
  {d d' : Dispatch} {b : Behavior} {p t v : Nat} {trigger : String} {stmt : Stmt} {returned : Bool}

/-- Where a transition was completed, the code that ends it clears the slot or finds it
clear, and returns. -/
theorem runs_release (h : Runs (Act call) d (release quiet ++ [.ret ""]) d' returned) :
    returned = true ∧ d.Calms d' ∧ d'.completed = d.completed ∧
      ((quiet = true → d.slot = none) → d'.slot = none) := by
  cases quiet with
  | true =>
    rcases h.of_append with ⟨-, h⟩ | ⟨mid, h, h'⟩
    · cases ((Runs.step_iff rfl).mp h).2
    · obtain rfl : mid = d := ((Runs.step_iff rfl).mp h).1
      obtain ⟨rfl, rfl⟩ := Runs.ret_iff.mp h'
      exact ⟨rfl, .refl _, rfl, fun hclear => hclear rfl⟩
  | false =>
    rcases h.of_append with ⟨-, h⟩ | ⟨mid, h, h'⟩
    · cases ((Runs.step_iff rfl).mp h).2
    · obtain rfl : mid = { d with slot := none } := ((Runs.step_iff rfl).mp h).1
      obtain ⟨rfl, rfl⟩ := Runs.ret_iff.mp h'
      exact ⟨rfl, .inr rfl, rfl, fun _ => rfl⟩

/-- Code that completes a transition closes if it goes on by ending it. -/
theorem closes_of_ending {code : List Stmt}
    (h : ∀ {d d' returned}, Runs (Act call) d code d' returned →
      (d' = d ∧ returned = false) ∨
        Runs (Act call) { d with completed := true } (release quiet ++ [.ret ""]) d' returned) :
    Closes call quiet code where
  calm hrun := by
    rcases h hrun with ⟨rfl, -⟩ | hend
    · exact .refl _
    · exact (runs_release hend).2.1
  fallen hrun hready := by
    rcases h hrun with ⟨rfl, -⟩ | hend
    · exact hready
    · cases (runs_release hend).1
  returned hrun hready _ := by
    rcases h hrun with ⟨-, hfalse⟩ | hend
    · cases hfalse
    · exact (runs_release hend).2.2.2 hready.clear

/-- A step in front that does nothing to the slot makes no difference. -/
theorem runs_idle {rest : List Stmt} (hstep : stmt.isStep)
    (hact : ∀ d d', Act call stmt d d' ↔ d' = d) :
    Runs (Act call) d (stmt :: rest) d' returned ↔ Runs (Act call) d rest d' returned := by
  rw [Runs.cons_iff hstep]
  constructor
  · rintro ⟨mid, heffect, hrest⟩
    obtain rfl := (hact _ _).mp heffect
    exact hrest
  · intro hrest
    exact ⟨d, (hact d d).mpr rfl, hrest⟩

/-- A comment in front makes no difference. -/
theorem runs_comment {text : String} {rest : List Stmt} :
    Runs (Act call) d (.comment text :: rest) d' returned ↔ Runs (Act call) d rest d' returned :=
  runs_idle rfl fun _ _ => Iff.rfl

/-- The question whether entering a state led elsewhere closes. -/
theorem closes_movedOnCheck (c : Compiler) (v : Nat) :
    Closes call quiet [c.movedOnCheck quiet v] := by
  refine closes_of_ending fun h => ?_
  rcases Runs.block_iff.mp h with ⟨mid, hmid, hrun⟩ | ⟨-, hsame⟩
  · obtain rfl := hmid
    exact .inr (runs_comment.mp hrun)
  · exact .inl hsame

/-- The end of a transition in a state closes. -/
theorem closes_completed (t : Nat) : Closes call quiet (completed quiet t) := by
  refine closes_of_ending fun h => .inr ?_
  rw [completed, List.append_assoc] at h
  obtain ⟨mid, rfl, hrun⟩ := (Runs.cons_iff rfl).mp (runs_comment.mp h)
  exact hrun

/-- Going on with a shared pseudo-state closes. -/
theorem closes_proceedTo (hobeys : Obeys call) (p : Nat) : Closes call quiet (proceedTo p) := by
  have hruns {d d' : Dispatch} {returned : Bool} (h : Runs (Act call) d (proceedTo p) d' returned) :
      call (.shared p) d d' ∧ returned = true := by
    obtain ⟨mid, hcall, hrun⟩ := (Runs.cons_iff rfl).mp (runs_comment.mp h)
    obtain ⟨rfl, rfl⟩ := Runs.ret_iff.mp hrun
    exact ⟨hcall, rfl⟩
  exact {
    calm := fun h => hobeys.calm _ _ _ (by simp) (hruns h).1
    fallen := fun h => by cases (hruns h).2
    returned := fun h hready => hobeys.shared p _ _ (hruns h).1 hready.pending }

/-- Moving along a transition closes. -/
theorem closes_approach (hobeys : Obeys call) {code : List Stmt}
    (h : ∀ stmt ∈ code, c.IsApproach quiet stmt) :
    Closes call quiet code := by
  refine .of_forall fun stmt hstmt => ?_
  rcases h stmt hstmt with hmove | ⟨v, rfl⟩
  · unfold Stmt.isMove at hmove
    split at hmove
    · exact .idle rfl fun _ _ h => h
    · exact .idle rfl fun _ _ h => h
    · exact .idle rfl fun _ _ h => h
    · exact .step rfl fun _ _ h => hobeys.aside (by simp) h
    · exact .step rfl fun _ _ h => hobeys.aside (by simp) h
    · refine .step rfl fun d d' h => ?_
      induction h with
      | refl => exact ⟨.refl _, rfl⟩
      | tail _ hlast ih =>
        obtain ⟨v, haside⟩ := hlast
        obtain ⟨hcalm, hcompleted⟩ := hobeys.aside (by simp) haside
        exact ⟨ih.1.trans hcalm, hcompleted.trans ih.2⟩
    · cases hmove
  · exact c.closes_movedOnCheck v

/-- The code of a behavior closes if its body does. -/
theorem closes_behaviorCode {guard : Option String} {body : List Stmt}
    (h : Closes call quiet body) :
    Closes call quiet (c.behaviorCode b guard body) := by
  have hcomment (text : String) : Closes call quiet [.comment text] := .idle rfl fun _ _ h => h
  exact .append (hcomment _) (.append (hcomment _) (.block (fun _ _ h => h) h))

/-- A transition that compiles closes if pseudo-states in place do. -/
theorem closes_transitionWith {inline : Nat → Draft} (hobeys : Obeys call)
    (hleads : b.hasTransition)
    (hinline : ∀ p, (inline p).fault = none → Closes call quiet (inline p).code)
    (hfault : (c.transitionWith inline quiet check b).fault = none) :
    Closes call quiet (c.transitionWith inline quiet check b).code := by
  obtain ⟨t, ht⟩ := Option.isSome_iff_exists.mp hleads
  obtain ⟨hsteps, guard, -, hcode⟩ := code_transitionWith ht hfault
  obtain ⟨hconclude, front, hfront, hfrontCode⟩ := code_transitionSteps hsteps
  rw [hcode, hfrontCode]
  refine closes_behaviorCode (.append (closes_approach hobeys hfront) ?_)
  rcases c.conclude_cases inline quiet t with ⟨-, hcase⟩ | ⟨p, -, ⟨-, hcase⟩ | ⟨-, hcase⟩⟩
  · rw [hcase, code_emit]
    exact closes_completed t
  · rw [hcase, code_emit]
    exact closes_proceedTo hobeys p
  · rw [hcase] at hconclude ⊢
    exact hinline p hconclude

/-- A pseudo-state that compiles in place closes, however deep others are nested in it. -/
theorem closes_inline (hobeys : Obeys call) (levels p : Nat)
    (hfault : (c.inline quiet levels p).fault = none) :
    Closes call quiet (c.inline quiet levels p).code := by
  induction levels generalizing p with
  | zero => simp [inline] at hfault
  | succ levels ih =>
    obtain ⟨hfaults, hcode⟩ := code_inline hfault
    rw [hcode]
    refine .inlined (.flatMap fun b hb => .append ?_ (.idle rfl fun _ _ h => h))
    exact closes_transitionWith hobeys (List.mem_filter.mp hb).2 ih (hfaults b hb)

/-- A behavior without a transition closes. -/
theorem closes_reaction (hfault : (c.reaction trigger quiet b).fault = none) :
    Closes call quiet (c.reaction trigger quiet b).code := by
  obtain ⟨guard, body, hbody, hcode⟩ := code_reaction hfault
  rw [hcode]
  refine closes_behaviorCode (.of_forall fun stmt hstmt => ?_)
  have hstop (note : String) : Closes call quiet [.stopEvent note] :=
    .step rfl fun d d' h => by
      obtain rfl := h
      exact ⟨.inr rfl, rfl⟩
  have hreactive := hbody stmt hstmt
  unfold Stmt.isReactive at hreactive
  split at hreactive
  · exact .idle rfl fun _ _ h => h
  · exact .idle rfl fun _ _ h => h
  · exact .idle rfl fun _ _ h => h
  · exact .idle rfl fun _ _ h => h
  · exact hstop _
  · exact .block (fun _ _ h => h) (hstop _)
  · cases hreactive

/-- The behaviors of a state on a trigger close, behind what hands the event on. -/
theorem closes_behaviors (hobeys : Obeys call)
    (hfaults : ∀ b ∈ c.machine.behaviorsOn v trigger, (c.behaviorDraft v trigger b).fault = none) :
    Closes call (c.isQuiet v trigger) (c.behaviorsCode v trigger) := by
  refine .flatMap fun b hb => .append ?_ (.idle rfl fun _ _ h => h)
  have hfault := hfaults b hb
  rw [behaviorDraft] at hfault ⊢
  by_cases hleads : b.hasTransition
  · rw [if_pos hleads] at hfault ⊢
    exact closes_transitionWith hobeys hleads (closes_inline hobeys _) hfault
  · rw [if_neg hleads] at hfault ⊢
    exact closes_reaction hfault

/-- What happens to a state that is entered or left closes. -/
theorem closes_behaviorsFor (hobeys : Obeys call) (htrigger : Trigger.isEvent trigger = false)
    (hfault : (c.behaviorsFor v trigger).fault = none) :
    Closes call (c.isQuiet v trigger) (c.behaviorsFor v trigger).code := by
  obtain ⟨hfaults, hcode⟩ := code_behaviorsFor hfault
  have hnothing : c.handOn v trigger = [] := by simp [handOn, htrigger]
  rw [hcode, hnothing, List.nil_append]
  exact closes_behaviors hobeys hfaults

/-- Taking over the events of a state closes. -/
theorem closes_takeOver (c : Compiler) (v : Nat) : Closes call quiet (c.takeOver v) := by
  refine .of_forall fun stmt hstmt => ?_
  simp only [takeOver, List.mem_append, List.mem_cons, List.mem_map, List.not_mem_nil,
    or_false] at hstmt
  rcases hstmt with ((rfl | rfl) | ⟨event, -, rfl⟩) | rfl <;> exact .idle rfl fun _ _ h => h

/-- Handing the events of a state back closes. -/
theorem closes_handBack (c : Compiler) (v : Nat) : Closes call quiet (c.handBack v).code := by
  refine .of_forall fun stmt hstmt => ?_
  unfold handBack at hstmt
  split at hstmt
  · rw [List.mem_singleton.mp hstmt]
    exact .idle rfl fun _ _ h => h
  · split at hstmt
    · simp only [code_emit, List.cons_append, List.nil_append, List.mem_cons, List.mem_map] at hstmt
      rcases hstmt with rfl | rfl | ⟨event, -, rfl⟩ <;> exact .idle rfl fun _ _ h => h
    · simp [fail] at hstmt

/-- The body of every function other than a handler of an event closes. -/
theorem closes_routineBody (hobeys : Obeys call) {r : Routine} (hr : ∀ v event, r ≠ .event v event)
    (hfault : (c.routineBody r).fault = none) :
    ∃ quiet, Closes call quiet (c.routineBody r).code := by
  cases r with
  | enter v =>
    rw [routineBody, fault_andThen, fault_emit, Option.none_or] at hfault
    rw [routineBody, code_andThen (fault_emit _), code_emit]
    exact ⟨_, .append (c.closes_takeOver v) (closes_behaviorsFor hobeys rfl hfault)⟩
  | exit v =>
    rw [routineBody, fault_andThen, Option.or_eq_none_iff] at hfault
    rw [routineBody, code_andThen hfault.1]
    exact ⟨_, .append (closes_behaviorsFor hobeys rfl hfault.1) (c.closes_handBack v)⟩
  | event v event => exact absurd rfl (hr v event)
  | shared p => exact ⟨false, closes_inline hobeys _ p hfault⟩

/-- The functions of a file obey, however deep their calls are nested. -/
theorem obeys_call {config : Config} (hfault : (c.functions config).fault = none) (depth : Nat) :
    Obeys (Call (c.functions config).code depth) := by
  obtain ⟨-, hroutines⟩ := fault_functions.mp hfault
  -- A function that is called has calls of one level less, and its own body closes by what those
  -- obey.
  induction depth with
  | zero => exact ⟨fun _ _ _ _ h => h.elim, fun _ _ _ h => h.elim⟩
  | succ depth ih =>
    refine ⟨?_, ?_⟩
    · rintro r d d' hr ⟨body, closed, returned, hblock, hrun⟩
      obtain ⟨hmem, rfl, -⟩ := (mem_code_functions hfault).mp hblock
      obtain ⟨quiet, hcloses⟩ := closes_routineBody ih hr (hroutines r hmem)
      exact hcloses.calm hrun
    · rintro p d d' ⟨body, closed, returned, hblock, hrun⟩ hopen hcompleted
      obtain ⟨hmem, rfl, -⟩ := (mem_code_functions hfault).mp hblock
      have hcloses : Closes _ false (c.routineBody (.shared p)).code :=
        closes_inline ih _ p (hroutines _ hmem)
      have hready : d.Ready false := ⟨hopen, by simp⟩
      cases returned with
      | true => exact hcloses.returned hrun hready hcompleted
      | false => cases (hcloses.fallen hrun hready).pending.symm.trans hcompleted

/-- What hands an event on fills the slot with the handler of the next outer state that has one. -/
theorem runs_handOn (hevent : Trigger.isEvent trigger) :
    Runs (Act call) {} (c.handOn v trigger) d' returned ↔
      d' = { slot := (c.machine.nextHandler v trigger).map (·, trigger) } ∧ returned = false := by
  have hgap {d : Dispatch} {rest : List Stmt} :
      Runs (Act call) d (.gap :: rest) d' returned ↔ Runs (Act call) d rest d' returned :=
    runs_idle rfl fun _ _ => Iff.rfl
  rw [handOn, if_pos hevent]
  cases c.machine.nextHandler v trigger with
  | none => rw [handOver, runs_comment, hgap, Runs.nil_iff, Option.map_none]
  | some a =>
    rw [handOver, runs_comment, Runs.cons_iff rfl, Option.map_some]
    constructor
    · rintro ⟨mid, rfl, hrest⟩
      exact Runs.nil_iff.mp (hgap.mp hrest)
    · intro hend
      exact ⟨_, rfl, hgap.mpr (Runs.nil_iff.mpr hend)⟩

/-- On every path through the handler of an event the slot ends as filled or clear, and if a
transition was completed, the path returns and the slot is clear. -/
theorem runs_handler (hobeys : Obeys call) (hevent : Trigger.isEvent trigger)
    (hfaults : ∀ b ∈ c.machine.behaviorsOn v trigger, (c.behaviorDraft v trigger b).fault = none)
    (h : Runs (Act call) {} (c.handOn v trigger ++ c.behaviorsCode v trigger) d' returned) :
    (d'.slot = (c.machine.nextHandler v trigger).map (·, trigger) ∨ d'.slot = none) ∧
      (d'.completed = true → returned = true ∧ d'.slot = none) := by
  have hcloses := closes_behaviors hobeys hfaults
  rcases h.of_append with ⟨-, hfront⟩ | ⟨filled, hfront, hrest⟩
  · cases ((runs_handOn hevent).mp hfront).2
  · obtain ⟨rfl, -⟩ := (runs_handOn hevent).mp hfront
    have hready :
        Ready (c.isQuiet v trigger)
          { slot := (c.machine.nextHandler v trigger).map (·, trigger) } := by
      refine ⟨rfl, fun hquiet => ?_⟩
      rw [isQuiet, if_pos hevent, Option.isNone_iff_eq_none] at hquiet
      rw [hquiet, Option.map_none]
    refine ⟨hcloses.calm hrest, fun hcompleted => ?_⟩
    cases returned with
    | true => exact ⟨rfl, hcloses.returned hrest hready hcompleted⟩
    | false => cases (hcloses.fallen hrest hready).pending.symm.trans hcompleted

end Compiler

/-- In a valid machine with a file, an event of a state has a handler in the file exactly if the
state lies in the root. Such a handler first fills the slot with the handler of the nearest outer
state that has one, if there is one. From then on the slot is as filled or clear, and if a
transition was completed, the handler has returned and the slot is clear. This holds for all paths
through the handler and the functions it calls, however deep these calls are nested. -/
theorem Machine.completed_transitions_end_dispatch {m : Machine} {name : String}
    {additions : List Addition} {config : Config} {expander : Snippet.Expander} {ctx : Context}
    {text : String} {s : Nat} {e : String} (hgrow : (new name).growAll additions = some m)
    (hvalid : m.problems = []) (htext : m.generateWith config expander ctx = .ok text)
    (hs : (m.kind s).isState) (he : e ∈ m.eventsOf s) :
    let code := ((m.compiler expander ctx).functions config).code
    let next := ((m.ancestors s).find? fun a => (m.eventsOf a).contains e).map (·, e)
    (m.isWithin root s = false → ∀ body closed, .block (.routine (.event s e)) body closed ∉ code) ∧
      (m.isWithin root s → ∃ front rest,
        (∀ body closed, .block (.routine (.event s e)) body closed ∈ code ↔
          body = front ++ rest ∧ closed = true) ∧
        ∀ depth,
          (∀ d returned, Runs (Dispatch.Act (Dispatch.Call code depth)) {} front d returned ↔
            d = { slot := next } ∧ returned = false) ∧
          ∀ d returned,
            Runs (Dispatch.Act (Dispatch.Call code depth)) {} (front ++ rest) d returned →
            (d.slot = next ∨ d.slot = none) ∧
            (d.completed = true → returned = true ∧ d.slot = none)) := by
  intro code next
  have hgrown := (grown_new name).growAll hgrow
  have hfault := fault_functions_of_generateWith htext
  obtain ⟨-, hroutines⟩ := Compiler.fault_functions.mp hfault
  have hevent := (mem_eventsOf.mp he).1
  constructor
  · intro hout body closed hblock
    obtain ⟨hr, -⟩ := (Compiler.mem_code_functions hfault).mp hblock
    have hlisted := Compiler.mem_states_of_event hr
    cases hout.symm.trans (isWithin_iff.mpr (root_mem_of_mem_states hlisted))
  · intro hin
    have hroot := isWithin_iff.mp hin
    have hroutine : Routine.event s e ∈ (m.compiler expander ctx).routines :=
      Compiler.mem_routines.mpr
      ⟨s, (hgrown.mem_states hvalid).mpr ⟨hroot, hs⟩, .inr (.inr (.inl ⟨e, he, rfl⟩))⟩
    have hnext : (m.nextHandler s e).map (·, e) = next := by
      rw [nextHandler_eq hevent, outward_eq_ancestors (hgrown.holder_eq_parent hroot)]
    obtain ⟨hfaults, hcode⟩ := Compiler.code_behaviorsFor (hroutines _ hroutine)
    refine ⟨(m.compiler expander ctx).handOn s e, (m.compiler expander ctx).behaviorsCode s e,
      fun body closed => ?_, fun depth => ⟨fun d returned => ?_, fun d returned hrun => ?_⟩⟩
    · rw [Compiler.mem_code_functions hfault, and_iff_right hroutine, ← hcode]
      rfl
    · rw [Compiler.runs_handOn hevent, ← hnext]
      rfl
    · rw [← hnext]
      exact Compiler.runs_handler (Compiler.obeys_call hfault depth) hevent hfaults hrun

namespace Dispatch

/-- What a statement does, given what the functions do that it calls. Leaving states up to a given
one is not followed. -/
def perform (call : Routine → Dispatch → Option Dispatch) (stmt : Stmt) (d : Dispatch) :
    Option Dispatch :=
  match stmt with
  | .passTo v event => some { d with slot := some (v, event) }
  | .stopEvent _ => some { d with slot := none }
  | .settle _ => some { d with completed := true }
  | .proceed p => call (.shared p) d
  | .enter v => (call (.enter v) { slot := d.slot }).map fun after => { d with slot := after.slot }
  | .exit v => (call (.exit v) { slot := d.slot }).map fun after => { d with slot := after.slot }
  | .exitUpTo _ => none
  | _ => some d

/-- The path that goes past every question, for so many statements at most. -/
def follow (call : Routine → Dispatch → Option Dispatch) :
    Nat → Dispatch → List Stmt → Option (Dispatch × Bool)
  | 0, _, _ => none
  | _ + 1, d, [] => some (d, false)
  | fuel + 1, d, stmt :: rest =>
    match stmt with
    | .ret _ => some (d, true)
    | .block head body _ => follow call fuel d (if head.asks then rest else body ++ rest)
    | .inlined _ body => follow call fuel d (body ++ rest)
    | stmt => (perform call stmt d).bind fun next => follow call fuel next rest

/-- The body of a function, where the statement is that function. -/
def bodyOf? (r : Routine) : Stmt → Option (List Stmt)
  | .block (.routine r') body _ => if r' = r then some body else none
  | _ => none

/-- What a function in the code does on that path, with calls that are nested up to the given
depth. -/
def followCall (code : List Stmt) (fuel : Nat) : Nat → Routine → Dispatch → Option Dispatch
  | 0 => fun _ _ => none
  | depth + 1 => fun r d =>
    (code.findSome? (bodyOf? r)).bind fun body =>
      (follow (followCall code fuel depth) fuel d body).map (·.1)

variable {run : Routine → Dispatch → Option Dispatch} {call : Routine → Dispatch → Dispatch → Prop}
  {d d' : Dispatch} {stmt : Stmt} {code : List Stmt} {fuel : Nat} {returned : Bool}

/-- What a step does is among what it may do. -/
theorem act_of_perform (hrun : ∀ r d d', run r d = some d' → call r d d') (hstep : stmt.isStep)
    (h : perform run stmt d = some d') : Act call stmt d d' := by
  have haside {r : Routine}
    (h : ((run r { slot := d.slot }).map fun after => { d with slot := after.slot }) =
      some d') : Aside call r d d' := by
    obtain ⟨after, hafter, rfl⟩ := Option.map_eq_some_iff.mp h
    exact ⟨after, hrun r _ _ hafter, rfl⟩
  cases stmt with
  | proceed p => exact hrun _ _ _ h
  | enter v => exact haside h
  | exit v => exact haside h
  | exitUpTo v => cases h
  | block head body closed => cases hstep
  | _ => exact (Option.some.inj h).symm

/-- The computed path is a path. -/
theorem runs_of_follow (hrun : ∀ r d d', run r d = some d' → call r d d')
    (h : follow run fuel d code = some (d', returned)) : Runs (Act call) d code d' returned := by
  induction fuel generalizing d code with
  | zero => cases h
  | succ fuel ih =>
    cases code with
    | nil =>
      obtain ⟨rfl, rfl⟩ := Prod.mk.inj (Option.some.inj h)
      exact .done d
    | cons stmt rest =>
      by_cases hstep : stmt.isStep
      · have hnext : ((perform run stmt d).bind fun next => follow run fuel next rest) =
            some (d', returned) := by
          cases stmt <;> first | exact h | cases hstep
        obtain ⟨next, hperform, hfollow⟩ := Option.bind_eq_some_iff.mp hnext
        exact .step hstep (act_of_perform hrun hstep hperform) (ih hfollow)
      · cases stmt with
        | ret note =>
          obtain ⟨rfl, rfl⟩ := Prod.mk.inj (Option.some.inj h)
          exact .ret d note rest
        | inlined p body => exact .inlined (ih h)
        | block head body closed =>
          rw [follow] at h
          cases hasks : head.asks with
          | true =>
            rw [hasks, if_pos rfl] at h
            exact .past hasks (ih h)
          | false =>
            rw [hasks, if_neg Bool.false_ne_true] at h
            have hact : Act call (.block head body closed) d d := by
              cases head <;> first | rfl | cases hasks
            exact .into hact (ih h)
        | _ => exact absurd rfl hstep

/-- What functions do on the computed path is among what they may do. -/
theorem call_of_followCall (depth : Nat) (r : Routine) (d d' : Dispatch)
    (h : followCall code fuel depth r d = some d') : Call code depth r d d' := by
  induction depth generalizing r d d' with
  | zero => cases h
  | succ depth ih =>
    obtain ⟨body, hbody, h⟩ := Option.bind_eq_some_iff.mp h
    obtain ⟨⟨_, returned⟩, hfollow, rfl⟩ := Option.map_eq_some_iff.mp h
    obtain ⟨stmt, hstmt, hfound⟩ := List.exists_of_findSome?_eq_some hbody
    unfold bodyOf? at hfound
    split at hfound
    · split at hfound
      · next r' body' closed hr =>
        obtain rfl := hr
        obtain rfl := Option.some.inj hfound
        exact ⟨_, closed, returned, hstmt, runs_of_follow ih hfollow⟩
      · cases hfound
    · cases hfound

end Dispatch

namespace Machine

/-- A hall that rings when it is pushed, with a light inside that is pushed on. -/
def hall : Machine :=
  (new "Home").addVertex root .initial
    |>.addVertex root (.state "Hall")
    |>.addVertex 2 .initial
    |>.addVertex 2 (.state "Dark")
    |>.addVertex 2 (.state "Lit")
    |>.addBehavior 1 { target := some 2 }
    |>.addBehavior 2 { triggers := ["push"], action := some "ring();" }
    |>.addBehavior 3 { target := some 4 }
    |>.addBehavior 4 { triggers := ["push"], target := some 5 }

/-- The hall can be put together. -/
theorem hall_assembled : hall.Assembled :=
  (Assembled.new "Home").addVertex (by decide) (by simp)
    |>.addVertex (by decide) (by simp)
    |>.addVertex (by decide) (by simp)
    |>.addVertex (by decide) (by simp)
    |>.addVertex (by decide) (by simp)
    |>.addBehavior (by decide)
    |>.addBehavior (by decide)
    |>.addBehavior (by decide)
    |>.addBehavior (by decide)

/-- The handler of pushing the light hands the event on to the hall first. It can complete its
transition, and whenever it does, it returns with the event kept from the hall. -/
theorem hall_push_ends_dispatch :
    let code := ((hall.compiler {} {}).functions {}).code
    ∃ front rest, .block (.routine (.event 4 "push")) (front ++ rest) true ∈ code ∧
      Runs (Dispatch.Act (Dispatch.Call code 1)) {} front { slot := some (2, "push") } false ∧
      Runs (Dispatch.Act (Dispatch.Call code 1)) {} (front ++ rest) { completed := true } true ∧
      ∀ depth d returned,
        Runs (Dispatch.Act (Dispatch.Call code depth)) {} (front ++ rest) d returned →
        d.completed = true → returned = true ∧ d.slot = none := by
  intro code
  obtain ⟨text, htext⟩ : ∃ text, hall.generateWith {} {} {} = .ok text :=
    exists_eq_ok (by decide +kernel)
  obtain ⟨name, additions, hgrow⟩ := hall_assembled.exists_growAll
  obtain ⟨front, rest, hblock, hruns⟩ := (completed_transitions_end_dispatch hgrow
    (by decide +kernel) htext (by decide : (hall.kind 4).isState)
    (by decide +kernel : "push" ∈ hall.eventsOf 4)).2 (by decide +kernel)
  have hnext :
      ((hall.ancestors 4).find? fun a => (hall.eventsOf a).contains "push").map (·, "push") =
      some (2, "push") := by decide +kernel
  rw [hnext] at hruns
  refine ⟨front, rest, (hblock _ _).mpr ⟨rfl, rfl⟩, ((hruns 1).1 _ _).mpr ⟨rfl, rfl⟩, ?_,
    fun depth d returned hrun => ((hruns depth).2 d returned hrun).2⟩
  have hfollow : Dispatch.followCall code 50 2 (.event 4 "push") {} =
      some { completed := true } := by
    decide +kernel
  obtain ⟨body, closed, returned, hmem, hrun⟩ := Dispatch.call_of_followCall 2 _ _ _ hfollow
  obtain ⟨rfl, -⟩ := (hblock _ _).mp hmem
  obtain ⟨rfl, -⟩ := ((hruns 1).2 _ _ hrun).2 rfl
  exact hrun

/-- The porch has no problems and gives a file, and pushing is an event of its bell, which is also
the next to handle it on the way out of the bell; but there is no handler for it in the file, so
nothing fills the slot. -/
theorem porch_push_not_handled :
    (∃ additions, (new "Porch").growAll additions = some porch) ∧ porch.problems = [] ∧
      (∃ text, porch.generateWith {} {} {} = .ok text) ∧ (porch.kind 3).isState ∧
      "push" ∈ porch.eventsOf 3 ∧
      porch.nextHandler 3 "push" = some 3 ∧ ∀ body closed,
        .block (.routine (.event 3 "push")) body closed ∉
          ((porch.compiler {} {}).functions {}).code := by
  obtain ⟨text, htext⟩ : ∃ text, porch.generateWith {} {} {} = .ok text :=
    exists_eq_ok (by decide +kernel)
  have hunlisted : Routine.event 3 "push" ∉ (porch.compiler {} {}).routines := by decide +kernel
  refine ⟨porch_grown, by decide +kernel, ⟨text, htext⟩, rfl, by decide +kernel,
    by decide +kernel, ?_⟩
  intro body closed hblock
  exact hunlisted
    ((Compiler.mem_code_functions (fault_functions_of_generateWith htext)).mp hblock).1

end Machine

end Statechart
