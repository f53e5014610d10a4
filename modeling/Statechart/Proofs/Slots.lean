import Statechart.Proofs.HandlerCode
import Statechart.Proofs.Leaving
import Statechart.Proofs.Routines

/-!
# Slots follow the active state

The generated code never climbs the tree to find a handler. Entering a state puts its own handlers
in the slots, and leaving it puts back what the states around it have, so that after any moves the
slot of an event holds the handler of the nearest state that has one. The loop that leaves states up
to a given one reads nothing but the slot for the exit function; it stops, because that slot names
one state after the other on the chain of ancestors.
-/

namespace Statechart

/-- The slots that last from one event to the next: the state whose exit function is the current
one, and for each event the state whose handler is called. -/
structure Slots where
  exit : Option Nat := none
  handler : String → Option (Nat × String) := fun _ => none

namespace Slots

variable {s : Slots} {code : List Stmt}

/-- Fill the slot of an event. -/
def put (s : Slots) (event : String) (handler : Option (Nat × String)) : Slots :=
  { s with handler := fun e => if e = event then handler else s.handler e }

/-- What a statement assigns; the bodies of blocks are passed over. -/
def assign (s : Slots) : Stmt → Slots
  | .setExit v => { s with exit := some v }
  | .setHandler event v => s.put event (some (v, event))
  | .restoreHandler event v => s.put event (v.map (·, event))
  | _ => s

/-- What statements assign one after the other. -/
def run (s : Slots) (code : List Stmt) : Slots := code.foldl assign s

/-- Running statements in two parts. -/
theorem run_append (s : Slots) (front code : List Stmt) :
    s.run (front ++ code) = (s.run front).run code :=
  List.foldl_append

/-- Statements that assign nothing. -/
theorem run_eq_self (h : ∀ stmt ∈ code, s.assign stmt = s) : s.run code = s := by
  induction code with
  | nil => rfl
  | cons stmt rest ih =>
    rw [List.forall_mem_cons] at h
    calc s.run (stmt :: rest) = (s.assign stmt).run rest := rfl
      _ = s.run rest := by rw [h.1]
      _ = s := ih h.2

/-- Assignments to the slots of several events fill those and leave all others. -/
theorem run_map {stmt : String → Stmt} {value : String → Option (Nat × String)}
    (hstmt : ∀ (s : Slots) event, s.assign (stmt event) = s.put event (value event)) (s : Slots)
    (events : List String) :
    (s.run (events.map stmt)).exit = s.exit ∧
      ∀ e, (s.run (events.map stmt)).handler e = if e ∈ events then value e else s.handler e := by
  induction events generalizing s with
  | nil => simp [run]
  | cons event rest ih =>
    obtain ⟨hexit, hhandler⟩ := ih (s.assign (stmt event))
    have hrun : s.run ((event :: rest).map stmt) = (s.assign (stmt event)).run (rest.map stmt) :=
      rfl
    rw [hrun]
    refine ⟨by rw [hexit, hstmt, put], fun e => ?_⟩
    rw [hhandler, hstmt, put]
    by_cases hrest : e ∈ rest
    · simp [hrest]
    · by_cases he : e = event
      · simp [he]
      · simp [hrest, he]

end Slots

namespace Machine

variable {m : Machine} {v p : Nat} {e : String}

/-- The events of a vertex are the events it reacts to. -/
theorem mem_eventsOf : e ∈ m.eventsOf v ↔ Trigger.isEvent e ∧ m.reactsTo v e := by
  rw [eventsOf, Text.mem_sortedSet, List.mem_filter, List.mem_flatMap, reactsTo, List.any_eq_true]
  simp only [Behavior.handles, List.contains_iff_mem]
  exact and_comm

/-- All events of the machine are dispatched at run time. -/
theorem isEvent_of_mem_events (h : e ∈ m.events) : Trigger.isEvent e := by
  rw [events, Text.mem_sortedSet, List.mem_cons, List.mem_flatMap] at h
  rcases h with rfl | ⟨v, -, hv⟩
  · decide
  · exact (mem_eventsOf.mp hv).1

/-- The handler of an event in the nearest vertex that has one, starting from `v`. -/
def handlerOf (m : Machine) (v : Nat) (e : String) : Option (Nat × String) :=
  ((m.ancestorsAndSelf v).find? fun a => (m.eventsOf a).contains e).map (·, e)

/-- A vertex handles its own events. -/
theorem handlerOf_of_mem (h : e ∈ m.eventsOf v) : m.handlerOf v e = some (v, e) := by
  rw [handlerOf, ancestorsAndSelf, List.find?_cons_of_pos (by simpa using h), Option.map_some]

/-- All other events are handled as in the vertex around. -/
theorem handlerOf_of_parent (hp : m.parent v = some p) (h : e ∉ m.eventsOf v) :
    m.handlerOf v e = m.handlerOf p e := by
  rw [handlerOf, ancestorsAndSelf_of_parent hp, List.find?_cons_of_neg (by simpa using h),
    handlerOf]

/-- Nothing handles the other events of the root. -/
theorem handlerOf_of_top (hp : m.parent v = none) (h : e ∉ m.eventsOf v) :
    m.handlerOf v e = none := by
  rw [handlerOf, ancestorsAndSelf_of_top hp, List.find?_cons_of_neg (by simpa using h),
    List.find?_nil, Option.map_none]

/-- The next handler of an event is the first vertex on the way out with that event. -/
theorem nextHandler_eq (he : Trigger.isEvent e) :
    m.nextHandler v e = (m.outward v).find? fun a => (m.eventsOf a).contains e := by
  rw [nextHandler]
  congr 1
  funext a
  rw [Bool.eq_iff_iff, List.contains_iff_mem, mem_eventsOf, and_iff_right he]

/-- The next handler of an event is the one in the nearest vertex around. -/
theorem nextHandler_map (hp : m.parent v = some p) (he : Trigger.isEvent e) :
    (m.nextHandler v e).map (·, e) = m.handlerOf p e := by
  rw [nextHandler_eq he, outward_eq_ancestors ((holder_of_parent hp).trans hp.symm),
    ancestors_of_parent hp, handlerOf]

/-- The slots fit the active state: its exit function is the current one, and every event has the
handler of the nearest vertex that has one. -/
structure Tracks (m : Machine) (active : Nat) (s : Slots) : Prop where
  exit : s.exit = some active
  handler : ∀ e ∈ m.events, s.handler e = m.handlerOf active e

end Machine

namespace Compiler

open Machine (root)

variable {c : Compiler} {active l p v x : Nat} {s : Slots}

/-- The slots after a state took over: all of its own events are its own, the rest is as before. -/
theorem run_takeOver (c : Compiler) (s : Slots) (x : Nat) :
    (s.run (c.takeOver x)).exit = some x ∧
      ∀ e, (s.run (c.takeOver x)).handler e = if e ∈ c.machine.eventsOf x then some (x, e)
        else s.handler e := by
  have hrun : s.run (c.takeOver x) =
      { s with exit := some x }.run ((c.machine.eventsOf x).map fun event =>
        .setHandler event x) := by
    rw [takeOver, Slots.run_append, Slots.run_append]
    rfl
  rw [hrun]
  exact Slots.run_map (fun _ _ => rfl) _ _

/-- Once the root is entered, the slots fit it. -/
theorem tracks_root (c : Compiler) :
    c.machine.Tracks root (({} : Slots).run (c.takeOver root)) where
  exit := (c.run_takeOver {} root).1
  handler e _ := by
    rw [(c.run_takeOver {} root).2]
    split
    · next h => rw [Machine.handlerOf_of_mem h]
    · next h => rw [Machine.handlerOf_of_top (Machine.parent_root _) h]

/-- Entering a state from the one around it makes the slots fit it. -/
theorem tracks_takeOver (h : c.machine.Tracks p s) (hparent : c.machine.parent x = some p) :
    c.machine.Tracks x (s.run (c.takeOver x)) where
  exit := (c.run_takeOver s x).1
  handler e he := by
    rw [(c.run_takeOver s x).2]
    split
    · next hmem => rw [Machine.handlerOf_of_mem hmem]
    · next hmem => rw [h.handler e he, Machine.handlerOf_of_parent hparent hmem]

/-- Leaving a state makes the slots fit the one around it. -/
theorem tracks_handBack (hvalid : c.machine.problems = []) (h : c.machine.Tracks x s)
    (hparent : c.machine.parent x = some p) : c.machine.Tracks p (s.run (c.handBack x).code) := by
  have hstate := Machine.isState_of_parent hvalid hparent
  have hrun : s.run (c.handBack x).code = { s with exit := some p }.run ((c.machine.eventsOf x).map
      fun event => .restoreHandler event (c.machine.nextHandler x event)) := by
    simp only [handBack, Machine.holder_of_parent hparent, hstate, if_true, Draft.code_emit,
      Slots.run_append]
    rfl
  have hrestore (s : Slots) (event : String) :
      s.assign (.restoreHandler event (c.machine.nextHandler x event)) =
        s.put event ((c.machine.nextHandler x event).map (·, event)) := rfl
  obtain ⟨hexit, hhandler⟩ :=
    Slots.run_map hrestore { s with exit := some p } (c.machine.eventsOf x)
  rw [hrun]
  refine ⟨hexit, fun e he => ?_⟩
  rw [hhandler]
  split
  · exact Machine.nextHandler_map hparent (Machine.isEvent_of_mem_events he)
  · next hmem => rw [h.handler e he, Machine.handlerOf_of_parent hparent hmem]

/-- The assignments of a function to slots that last, without the behaviors in it. -/
def slotCode (c : Compiler) : Routine → List Stmt
  | .enter v => c.takeOver v
  | .exit v => (c.handBack v).code
  | .event .. | .shared _ => []

/-- The slots after moves from state to state: first the root is entered, then states inside the
active one are entered and the active one is left. -/
inductive Run (c : Compiler) : Nat → Slots → Prop
  | start : Run c root (({} : Slots).run (c.slotCode (.enter root)))
  | enter {active x : Nat} {s : Slots} (h : Run c active s)
      (hparent : c.machine.parent x = some active) :
      Run c x (s.run (c.slotCode (.enter x)))
  | exit {x p : Nat} {s : Slots} (h : Run c x s) (hparent : c.machine.parent x = some p) :
      Run c p (s.run (c.slotCode (.exit x)))

/-- After any moves the slots fit the active state. -/
theorem Run.tracks (hvalid : c.machine.problems = []) (h : c.Run active s) :
    c.machine.Tracks active s := by
  induction h with
  | start => exact c.tracks_root
  | enter h hparent ih => exact tracks_takeOver ih hparent
  | exit h hparent ih => exact tracks_handBack hvalid ih hparent

/-- The behaviors of a state assign nothing outside their blocks. -/
theorem run_behaviorsFor {trigger : String} (hfault : (c.behaviorsFor v trigger).fault = none) :
    s.run (c.behaviorsFor v trigger).code = s := by
  refine Slots.run_eq_self fun stmt hstmt => ?_
  rcases mem_code_behaviorsFor hfault hstmt with haside | ⟨b, -, guard, body, rfl, -⟩
  · cases stmt <;> first | rfl | cases haside
  · rfl

/-- What the body of a function assigns, without the bodies of its behaviors. -/
theorem run_routineBody {r : Routine} (hfault : (c.routineBody r).fault = none) :
    s.run (c.routineBody r).code = s.run (c.slotCode r) := by
  cases r with
  | enter v =>
    rw [routineBody, Draft.fault_andThen, Draft.fault_emit, Option.none_or] at hfault
    rw [routineBody, Draft.code_andThen (Draft.fault_emit _), Draft.code_emit, Slots.run_append,
      run_behaviorsFor hfault, slotCode]
  | exit v =>
    rw [routineBody, Draft.fault_andThen, Option.or_eq_none_iff] at hfault
    rw [routineBody, Draft.code_andThen hfault.1, Slots.run_append, run_behaviorsFor hfault.1,
      slotCode]
  | event v event => exact run_behaviorsFor hfault
  | shared p => rfl

/-- Where the loop that leaves states stands: the slots, the state whose exit function it has found
to be the current one, and the states it has left. -/
structure Loop where
  slots : Slots
  found : Option Nat := none
  left : List Nat := []

/-- How the loop that leaves states runs, with the state at whose exit function it is to stop; the
last argument tells whether the loop around is to end. -/
inductive Exec (c : Compiler) (desired : Nat) : Loop → List Stmt → Loop → Bool → Prop
  | done (st : Loop) : Exec c desired st [] st false
  | stop (st : Loop) (rest : List Stmt) : Exec c desired st (.stopLoop :: rest) st true
  | call {st st' : Loop} {v : Nat} {rest : List Stmt} {ends : Bool} (hfound : st.found = some v)
      (h : Exec c desired
        { st with slots := st.slots.run (c.slotCode (.exit v)), left := st.left ++ [v] }
        rest st' ends) : Exec c desired st (.callExit :: rest) st' ends
  | other {st st' : Loop} {body rest : List Stmt} {closed ends : Bool}
      (hfound : st.found ≠ some desired)
      (h : Exec c desired st rest st' ends) :
        Exec c desired st (.block .exitReached body closed :: rest) st' ends
  | reached {st mid st' : Loop} {body rest : List Stmt} {closed ends : Bool}
      (hfound : st.found = some desired)
      (hbody : Exec c desired st body mid false) (h : Exec c desired mid rest st' ends) :
      Exec c desired st (.block .exitReached body closed :: rest) st' ends
  | reachedStop {st st' : Loop} {body rest : List Stmt} {closed : Bool}
      (hfound : st.found = some desired)
      (hbody : Exec c desired st body st' true) :
      Exec c desired st (.block .exitReached body closed :: rest) st' true
  | skip {st st' : Loop} {body rest : List Stmt} {closed ends : Bool} (hexit : st.slots.exit = none)
      (h : Exec c desired st rest st' ends) :
        Exec c desired st (.block .whileExit body closed :: rest) st' ends
  | again {st mid st' : Loop} {v : Nat} {body rest : List Stmt} {closed ends : Bool}
      (hexit : st.slots.exit = some v)
        (hbody : Exec c desired { st with found := some v } body mid false)
      (h : Exec c desired mid (.block .whileExit body closed :: rest) st' ends) :
      Exec c desired st (.block .whileExit body closed :: rest) st' ends
  | last {st mid st' : Loop} {v : Nat} {body rest : List Stmt} {closed ends : Bool}
      (hexit : st.slots.exit = some v)
        (hbody : Exec c desired { st with found := some v } body mid true)
      (h : Exec c desired mid rest st' ends) :
        Exec c desired st (.block .whileExit body closed :: rest) st' ends

/-- The loop ends where it is to stop. -/
theorem exec_exitLoop_reached {st st' : Loop} {ends : Bool} (hexit : st.slots.exit = some l) :
    c.Exec l st [Machine.exitLoopBlock] st' ends ↔ st' = { st with found := some l } ∧
      ends = false := by
  constructor
  · intro h
    cases h with
    | skip hnone => simp [hexit] at hnone
    | again hv hbody =>
      obtain rfl : l = _ := Option.some.inj (hexit.symm.trans hv)
      cases hbody with
      | other hfound => exact absurd rfl hfound
      | reached hfound hstop => cases hstop
    | last hv hbody h =>
      obtain rfl : l = _ := Option.some.inj (hexit.symm.trans hv)
      cases hbody with
      | other hfound => exact absurd rfl hfound
      | reached hfound hstop => cases hstop
      | reachedStop hfound hstop =>
        cases hstop
        cases h
        exact ⟨rfl, rfl⟩
  · rintro ⟨rfl, rfl⟩
    exact .last hexit (.reachedStop rfl (.stop _ _)) (.done _)

/-- Anywhere else the loop leaves the state whose exit function is the current one and goes on. -/
theorem exec_exitLoop_other {st st' : Loop} {ends : Bool} (hexit : st.slots.exit = some v)
    (hne : v ≠ l) :
    c.Exec l st [Machine.exitLoopBlock] st' ends ↔
      c.Exec l ⟨st.slots.run (c.slotCode (.exit v)), some v, st.left ++ [v]⟩
        [Machine.exitLoopBlock] st' ends := by
  have hfound : some v ≠ some l := fun h => hne (Option.some.inj h)
  constructor
  · intro h
    cases h with
    | skip hnone => simp [hexit] at hnone
    | again hv hbody h =>
      obtain rfl : v = _ := Option.some.inj (hexit.symm.trans hv)
      cases hbody with
      | other _ hcall =>
        cases hcall with
        | call hw hdone =>
          obtain rfl : v = _ := Option.some.inj hw
          cases hdone
          exact h
      | reached heq => exact absurd heq hfound
    | last hv hbody =>
      obtain rfl : v = _ := Option.some.inj (hexit.symm.trans hv)
      cases hbody with
      | other _ hcall =>
        cases hcall with
        | call _ hdone => cases hdone
      | reached heq => exact absurd heq hfound
      | reachedStop heq => exact absurd heq hfound
  · intro h
    exact .again hexit (.other hfound (.call rfl (.done _))) h

/-- The loop stops with the given state active, after leaving what lies below it, innermost
first. -/
theorem exec_exitLoop (st : Loop) (hvalid : c.machine.problems = []) (hrun : c.Run active st.slots)
    (hl : l ∈ c.machine.ancestorsAndSelf active) :
    ∃ slots, c.Run l slots ∧ ∀ st' ends, c.Exec l st [Machine.exitLoopBlock] st' ends ↔
      st' = ⟨slots, some l, st.left ++ c.machine.below l active⟩ ∧ ends = false := by
  -- Each pass leaves one state, so the argument climbs with the loop from the active state to `l`.
  induction active using Machine.climb (m := c.machine) generalizing st with
  | step active ih =>
    have hexit := (hrun.tracks hvalid).exit
    by_cases hne : active = l
    · subst hne
      refine ⟨st.slots, hrun, fun st' ends => ?_⟩
      rw [exec_exitLoop_reached hexit, Machine.below_self, List.append_nil]
    · obtain ⟨p, hp, hlp⟩ := Machine.exists_parent_of_mem hl hne
      obtain ⟨slots, hslots, hexec⟩ :=
        ih p hp ⟨st.slots.run (c.slotCode (.exit active)), some active, st.left ++ [active]⟩
          (hrun.exit hp) hlp
      refine ⟨slots, hslots, fun st' ends => ?_⟩
      rw [exec_exitLoop_other hexit hne, hexec, Machine.below_of_parent hp hne, List.append_assoc,
        List.singleton_append]

/-- After any moves through a valid machine the slots fit the active state, and the loop that
leaves states up to one that the active state lies in stops there, after leaving exactly the
states below it, innermost first. The functions that enter and leave states assign nothing else
outside their behaviors. -/
theorem slots_follow_moves (hvalid : c.machine.problems = []) (hrun : c.Run active s) :
    c.machine.Tracks active s ∧
      (∀ l, c.machine.isWithin l active → ∃ slots, c.Run l slots ∧
        ∀ st ends, c.Exec l { slots := s } [Machine.exitLoopBlock] st ends ↔
          st = ⟨slots, some l, c.machine.below l active⟩ ∧ ends = false) ∧
      ∀ (r : Routine) (s : Slots), (c.routineBody r).fault = none →
        s.run (c.routineBody r).code = s.run (c.slotCode r) := by
  refine ⟨hrun.tracks hvalid, fun l hl => ?_, fun r s hfault => run_routineBody hfault⟩
  have hloop := exec_exitLoop { slots := s } hvalid hrun (Machine.isWithin_iff.mp hl)
  simpa using hloop

end Compiler

namespace Machine

/-- The lamp enters On and Dim: pushing it is up to On, and leaving up to the root
leaves Dim and On. -/
theorem lamp_slots_dim :
    ∃ s, (lamp.compiler {} {}).Run 5 s ∧ s.exit = some 5 ∧ s.handler "push" = some (3, "push") ∧
      ∃ st, (lamp.compiler {} {}).Exec root { slots := s }
      [exitLoopBlock] st false ∧ st.left = [5, 3] := by
  have hrun := ((Compiler.Run.start (c := lamp.compiler {} {})).enter
    (by decide : lamp.parent 3 = some root)).enter (by decide : lamp.parent 5 = some 3)
  obtain ⟨htracks, hloop, -⟩ := Compiler.slots_follow_moves (by decide +kernel) hrun
  obtain ⟨slots, -, hexec⟩ := hloop root (by decide +kernel)
  have hbelow : lamp.below root 5 = [5, 3] := by decide +kernel
  refine ⟨_, hrun, htracks.exit, ?_, _, (hexec _ _).mpr ⟨rfl, rfl⟩, hbelow⟩
  rw [htracks.handler "push" (by decide +kernel)]
  decide +kernel

end Machine

end Statechart
