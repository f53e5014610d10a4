import Statechart.Proofs.Leaving
import Statechart.Proofs.Listing
import Statechart.Proofs.Routines
import Statechart.Proofs.TransitionCode

/-!
# Transitions leave and enter states in order

A way through the code of a transition runs its statements in order and, at a pseudo-state that is
compiled in place, goes on with one of the pseudo-state's transitions. Reading the calls of a way
over the state that is active, no state is left unless it is the active one, no state is entered
unless the one around it is active, states are left up to a given one only from inside it, and the
state that is recorded at the end is the active one. Every way ends with a return.

The check behind an enter call, whether entering led elsewhere, is passed over: a way is what
happens when no enter behavior starts a transition of its own.
-/

namespace Statechart

/-- Whether control goes on behind the statement, at least if entering a state did
not lead elsewhere. -/
def Stmt.continues : Stmt → Bool
  | .ret _ | .inlined .. | .block (.behavior ..) .. => false
  | _ => true

/-- The ways through code: the statements in order up to a return, with one of the transitions of a
pseudo-state that is compiled in place. -/
inductive Way : List Stmt → List Stmt → Prop
  | done : Way [] []
  | ret (note : String) (rest : List Stmt) : Way (.ret note :: rest) [.ret note]
  | step {s : Stmt} {rest way : List Stmt} (hs : s.continues) (h : Way rest way) :
      Way (s :: rest) (s :: way)
  | taken {p : Nat} {b : Behavior} {guard : Option String} {body transitions rest way : List Stmt}
      {closed : Bool} (hb : .block (.behavior b guard) body closed ∈ transitions)
        (h : Way body way) :
      Way (.inlined p transitions :: rest) way

namespace Machine

/-- The active state after a statement, or `none` where the statement may not stand: only the active
state is left, and not the root; a state is entered from the one around it; states are left up to
one that the active state lies in; the active state is recorded; and a shared pseudo-state is gone
to from its parent. -/
def step (m : Machine) (active : Nat) : Stmt → Option Nat
  | .enter v => if m.parent v = some active then some v else none
  | .exit v => if active = v ∧ v ≠ root then m.parent v else none
  | .exitUpTo v => if m.isWithin v active then some v else none
  | .settle v => if active = v then some v else none
  | .proceed p => if m.parent p = some active then some active else none
  | _ => some active

/-- The active state after statements, or `none` where one of them may not stand. -/
def walk (m : Machine) (active : Nat) (way : List Stmt) : Option Nat := way.foldlM m.step active

/-- There is a way through the code, and every way keeps to the order of leaving and entering states
and ends with a return. -/
structure Orderly (m : Machine) (active : Nat) (code : List Stmt) : Prop where
  exists_way : ∃ way, Way code way
  walks : ∀ way, Way code way → (m.walk active way).isSome
  returns : ∀ way, Way code way → ∃ init note, way = init ++ [.ret note]

variable {m : Machine} {active next p t : Nat} {code front way : List Stmt}

/-- Walking statements in two parts. -/
theorem walk_append (m : Machine) (active : Nat) (front way : List Stmt) :
    m.walk active (front ++ way) = (m.walk active front).bind fun next => m.walk next way :=
  List.foldlM_append

/-- Walking one statement after another. -/
theorem walk_cons (m : Machine) (active : Nat) (s : Stmt) (way : List Stmt) :
    m.walk active (s :: way) = (m.step active s).bind fun next => m.walk next way :=
  List.foldlM_cons

/-- A way through code that starts with statements behind which control goes on. -/
theorem way_append_iff (hfront : ∀ s ∈ front, s.continues) :
    Way (front ++ code) way ↔ ∃ rest, way = front ++ rest ∧ Way code rest := by
  induction front generalizing way with
  | nil => simp
  | cons s front ih =>
    rw [List.forall_mem_cons] at hfront
    constructor
    · intro h
      cases h with
      | ret => simp [Stmt.continues] at hfront
      | taken => simp [Stmt.continues] at hfront
      | step hs h =>
        obtain ⟨rest, rfl, hrest⟩ := (ih hfront.2).mp h
        exact ⟨rest, rfl, hrest⟩
    · rintro ⟨rest, rfl, hrest⟩
      exact .step hfront.1 ((ih hfront.2).mpr ⟨rest, rfl, hrest⟩)

/-- Code is orderly from where statements in front of it lead. -/
theorem Orderly.append (h : m.Orderly next code) (hfront : ∀ s ∈ front, s.continues)
    (hwalk : m.walk active front = some next) : m.Orderly active (front ++ code) where
  exists_way := by
    obtain ⟨way, hway⟩ := h.exists_way
    exact ⟨front ++ way, (way_append_iff hfront).mpr ⟨way, rfl, hway⟩⟩
  walks way hway := by
    obtain ⟨rest, rfl, hrest⟩ := (way_append_iff hfront).mp hway
    rw [walk_append, hwalk, Option.bind_some]
    exact h.walks rest hrest
  returns way hway := by
    obtain ⟨rest, rfl, hrest⟩ := (way_append_iff hfront).mp hway
    obtain ⟨init, note, rfl⟩ := h.returns rest hrest
    exact ⟨front ++ init, note, (List.append_assoc ..).symm⟩

/-- A return is orderly. -/
theorem orderly_ret (m : Machine) (active : Nat) (note : String) :
    m.Orderly active [.ret note] where
  exists_way := ⟨_, .ret note []⟩
  walks way hway := by
    cases hway with
    | ret => simp [walk, step]
    | step hs => simp [Stmt.continues] at hs
  returns way hway := by
    cases hway with
    | ret => exact ⟨[], note, rfl⟩
    | step hs => simp [Stmt.continues] at hs

/-- A pseudo-state in place is orderly if it has transitions and all of them are. -/
theorem orderly_inlined {transitions : List Stmt}
    (hsome : ∃ b guard body closed, .block (.behavior b guard) body closed ∈ transitions)
    (hall : ∀ b guard body closed, .block (.behavior b guard) body closed ∈ transitions →
      m.Orderly active body) : m.Orderly active [.inlined p transitions] where
  exists_way := by
    obtain ⟨b, guard, body, closed, hb⟩ := hsome
    obtain ⟨way, hway⟩ := (hall b guard body closed hb).exists_way
    exact ⟨way, .taken hb hway⟩
  walks way hway := by
    cases hway with
    | step hs => simp [Stmt.continues] at hs
    | taken hb hway => exact (hall _ _ _ _ hb).walks way hway
  returns way hway := by
    cases hway with
    | step hs => simp [Stmt.continues] at hs
    | taken hb hway => exact (hall _ _ _ _ hb).returns way hway

/-- The state that is active once a transition has come to a vertex: a state itself, or the state
around a pseudo-state. -/
def seat (m : Machine) (v : Nat) : Nat := if (m.kind v).isState then v else (m.parent v).getD root

/-- A state is its own seat. -/
theorem seat_of_isState (h : (m.kind t).isState) : m.seat t = t := if_pos h

/-- The pseudo-state that a transition goes on with lies right in the state that is active by
then. -/
theorem parent_of_completion (h : m.Grown) (ht : root ∈ m.ancestorsAndSelf t)
    (hp : m.completion t = some p) :
    m.parent p = some (m.seat t) := by
  rw [completion] at hp
  split at hp
  · next hpseudo =>
    obtain rfl : t = p := Option.some.inj hp
    have hnot : (m.kind t).isState = false := by simpa [Kind.isPseudo] using hpseudo
    have hne : t ≠ root := by
      rintro rfl
      simp [h.root_isState] at hnot
    obtain ⟨q, hq, -⟩ := exists_parent_of_mem ht hne
    simp [seat, hnot, hq]
  · next hstate =>
    rw [seat_of_isState (by simpa [Kind.isPseudo] using hstate)]
    exact (initialOf_spec hp).1

/-- A transition ends in states only. -/
theorem isState_of_completion_eq_none (h : m.completion t = none) : (m.kind t).isState := by
  rw [completion] at h
  split at h
  · cases h
  · next hstate => simpa [Kind.isPseudo] using hstate

end Machine

namespace Compiler

open Draft
open Machine (root)

variable {c : Compiler} {quiet check : Bool} {b : Behavior} {active lca p s t v : Nat}

/-- Entering a state from the one around it makes it the active one. -/
theorem walk_enterCall (h : c.machine.parent v = some p) :
    c.machine.walk p (c.enterCall quiet v) = some v := by
  rw [enterCall, Machine.walk_cons, Machine.step, if_pos h, Option.bind_some]
  split <;> rfl

/-- The statements that enter one vertex on the way to a target. -/
def enterStep (c : Compiler) (quiet : Bool) (v : Nat) : List Stmt :=
  if (c.machine.kind v).isState then c.enterCall quiet v
  else [.comment (c.machine.describe v ++ " is a pseudo state and cannot have an `enter` trigger.")]

/-- Entering what lies between a state and a vertex inside it leads to the vertex's seat. -/
theorem walk_enterSteps (quiet : Bool) (hvalid : c.machine.problems = [])
    (hlca : (c.machine.kind lca).isState) (hmem : lca ∈ c.machine.ancestorsAndSelf t) :
    c.machine.walk lca ((c.machine.below lca t).reverse.flatMap (c.enterStep quiet)) =
      some (c.machine.seat t) := by
  induction t using Machine.climb (m := c.machine) with
  | step t ih =>
    by_cases hne : t = lca
    · rw [hne, Machine.below_self, Machine.seat_of_isState hlca]
      rfl
    · obtain ⟨p, hp, hmemp⟩ := Machine.exists_parent_of_mem hmem hne
      have hstate := Machine.isState_of_parent hvalid hp
      rw [Machine.below_of_parent hp hne, List.reverse_cons, List.flatMap_append,
        Machine.walk_append, ih p hp hmemp, Option.bind_some, Machine.seat_of_isState hstate,
        List.flatMap_singleton, enterStep]
      split
      · next ht => rw [walk_enterCall hp, Machine.seat_of_isState ht]
      · next ht => simp [Machine.seat, ht, hp, Machine.walk, Machine.step]

/-- Entering towards the target of a path leads from the least common ancestor to
the target's seat. -/
theorem walk_enterTowards (h : c.machine.Grown) (hvalid : c.machine.problems = [])
    (hs : root ∈ c.machine.ancestorsAndSelf s) (ht : root ∈ c.machine.ancestorsAndSelf t) :
    c.machine.walk (c.machine.path s t).lca (c.enterTowards quiet (c.machine.path s t)) =
      some (c.machine.seat t) := by
  have hwalk := walk_enterSteps quiet hvalid (Machine.path_lca_isState h hvalid hs ht)
    (Machine.path_lca_mem_target h hs ht)
  rw [← Machine.path_enters h hs ht] at hwalk
  rw [enterTowards]
  split
  · next hempty =>
    rw [List.isEmpty_iff.mp hempty] at hwalk
    rw [← hwalk]
    rfl
  · change c.machine.walk _ ((c.machine.path s t).enters.flatMap (c.enterStep quiet) ++ [.gap]) = _
    rw [Machine.walk_append, hwalk]
    rfl

/-- Control goes on behind everything that enters states. -/
theorem continues_enterTowards (path : Path) : ∀ s ∈ c.enterTowards quiet path, s.continues := by
  intro s hs
  rw [enterTowards] at hs
  split at hs
  · rw [List.mem_singleton.mp hs]
    rfl
  · simp only [List.mem_append, List.mem_flatMap, List.mem_singleton] at hs
    rcases hs with ⟨v, -, hs⟩ | rfl
    · split at hs
      · rw [enterCall, List.mem_cons] at hs
        rcases hs with rfl | hs
        · rfl
        · split at hs
          · rw [List.mem_singleton.mp hs]
            rfl
          · simp at hs
      · rw [List.mem_singleton.mp hs]
        rfl
    · rfl

/-- Leaving states leads from wherever the transition finds the machine to the
least common ancestor. -/
theorem walk_leave (h : c.machine.Grown) (hvalid : c.machine.problems = [])
    (hs : root ∈ c.machine.ancestorsAndSelf s) (ht : root ∈ c.machine.ancestorsAndSelf t)
    (hfind : c.machine.MayFind s active)
    (hrequired : c.machine.exitRequired s t (c.machine.path s t))
    (hfault : (c.leave s (c.machine.path s t)).fault = none) :
    (∀ stmt ∈ (c.leave s (c.machine.path s t)).code, stmt.continues) ∧
      c.machine.walk active (c.leave s (c.machine.path s t)).code =
        some (c.machine.path s t).lca := by
  rcases leave_cases hfault with ⟨v, hdirect, hcode⟩ | ⟨hstate, hcode⟩
  · obtain ⟨rfl, hparent⟩ := Machine.directExit_active h hvalid hs ht hfind hrequired hdirect
    rw [hcode, Machine.walk_cons, Machine.step, if_pos ⟨rfl, Machine.ne_root_of_parent hparent⟩,
      hparent]
    exact ⟨by simp [Stmt.continues], rfl⟩
  · rw [hcode, Machine.walk_cons, Machine.step, if_pos (Machine.lca_isWithin h hs ht hfind hstate)]
    exact ⟨by simp [Stmt.continues], rfl⟩

/-- Ending a transition in the active state is orderly. -/
theorem orderly_completed (m : Machine) (quiet : Bool) (v : Nat) :
    m.Orderly v (completed quiet v) := by
  refine (m.orderly_ret v "").append ?_ ?_
  · cases quiet <;> simp [release, nothingToStop, Stmt.continues]
  · cases quiet <;> simp [release, nothingToStop, Machine.walk, Machine.step]

/-- Going on with a shared pseudo-state is orderly in the state around it. -/
theorem orderly_proceedTo {m : Machine} (h : m.parent p = some v) : m.Orderly v (proceedTo p) := by
  change m.Orderly v ([_, .proceed p] ++ [.ret _])
  refine (m.orderly_ret v _).append ?_ ?_
  · simp [Stmt.continues]
  · simp [Machine.walk, Machine.step, h]

/-- Pseudo-states that are compiled in place like this are orderly in the state around them, if it
lies in the root. -/
def OrderlyInPlace (c : Compiler) (inline : Nat → Draft) : Prop :=
  ∀ p v, (c.machine.kind p).isPseudo → root ∈ c.machine.ancestorsAndSelf v →
    c.machine.parent p = some v → (inline p).fault = none → c.machine.Orderly v (inline p).code

/-- The end of a transition is orderly where its target has been entered, if pseudo-states in place
are. -/
theorem orderly_conclude {inline : Nat → Draft} (h : c.machine.Grown)
    (ht : root ∈ c.machine.ancestorsAndSelf t) (hfault : (c.conclude inline quiet t).fault = none)
    (hinline : c.OrderlyInPlace inline) :
    c.machine.Orderly (c.machine.seat t) (c.conclude inline quiet t).code := by
  rw [conclude] at hfault ⊢
  cases hp : c.machine.completion t with
  | none =>
    rw [Machine.seat_of_isState (Machine.isState_of_completion_eq_none hp)]
    exact orderly_completed c.machine quiet t
  | some p =>
    have hparent := Machine.parent_of_completion h ht hp
    have hroot := (Machine.root_mem_iff_of_parent hparent).mp (Machine.root_mem_of_completion ht hp)
    simp only [hp] at hfault ⊢
    by_cases hshared : c.plan.isShared p
    · rw [if_pos hshared]
      exact orderly_proceedTo hparent
    · rw [if_neg hshared] at hfault ⊢
      exact hinline p _ (Machine.isPseudo_of_completion hp) hroot hparent hfault

/-- The first step of a transition leads to the least common ancestor, from wherever the transition
finds the machine or, if nothing is to be left, from that ancestor. -/
theorem walk_departure (h : c.machine.Grown) (hvalid : c.machine.problems = [])
    (hs : root ∈ c.machine.ancestorsAndSelf s) (ht : root ∈ c.machine.ancestorsAndSelf t)
    (hfind : if check then c.machine.MayFind s active else active = (c.machine.path s t).lca)
    (hfault : (c.departure check s t).fault = none) :
    (∀ stmt ∈ (c.departure check s t).code, stmt.continues) ∧
      c.machine.walk active (c.departure check s t).code = some (c.machine.path s t).lca := by
  have hpath := hasPath_of_departure hfault
  rw [departure, if_pos hpath] at hfault ⊢
  by_cases hleave : check && c.machine.exitRequired s t (c.machine.path s t)
  · rw [if_pos hleave] at hfault ⊢
    obtain ⟨hcheck, hrequired⟩ := Bool.and_eq_true_iff.mp hleave
    rw [if_pos hcheck] at hfind
    rw [fault_andThen, fault_emit, Option.none_or] at hfault
    obtain ⟨hcontinues, hwalk⟩ := walk_leave h hvalid hs ht hfind hrequired hfault
    rw [code_andThen (fault_emit _), code_emit, Machine.walk_append]
    refine ⟨?_, hwalk⟩
    simpa [Stmt.continues] using hcontinues
  · rw [if_neg hleave]
    have hactive : active = (c.machine.path s t).lca := by
      cases check with
      | false => simpa using hfind
      | true =>
        rw [if_pos rfl] at hfind
        exact Machine.eq_lca_of_not_exitRequired hfind (by simpa using hleave)
    exact ⟨by simp [Stmt.continues], by simp [Machine.walk, Machine.step, hactive]⟩

/-- An action neither ends a transition nor touches the active state. -/
theorem walk_action (m : Machine) (active : Nat) (hfault : (c.action b).fault = none) :
    (∀ stmt ∈ (c.action b).code, stmt.continues) ∧
      m.walk active (c.action b).code = some active := by
  rw [action] at hfault ⊢
  by_cases haction : b.hasAction
  · rw [if_pos haction] at hfault ⊢
    cases hcode : c.expand b (b.action.getD "") with
    | error fault => simp [hcode] at hfault
    | ok code => simp [Stmt.continues, Machine.walk, Machine.step]
  · simp [haction, Machine.walk]

/-- The steps of a transition are orderly from wherever it finds the machine, if
pseudo-states in place are. -/
theorem orderly_transitionSteps {inline : Nat → Draft} (h : c.machine.Grown)
    (hvalid : c.machine.problems = []) (hs : root ∈ c.machine.ancestorsAndSelf b.owner)
    (hlt : t < c.machine.size)
    (hfind : if check then c.machine.MayFind b.owner active
      else active = (c.machine.path b.owner t).lca)
    (hfault : (c.transitionSteps inline quiet check b t).fault = none)
    (hinline : c.OrderlyInPlace inline) :
    c.machine.Orderly active (c.transitionSteps inline quiet check b t).code := by
  have ht := h.root_mem_of_hasPath hs hlt (hasPath_of_transitionSteps hfault)
  simp only [transitionSteps, fault_andThen, fault_emit, Option.none_or,
    Option.or_eq_none_iff] at hfault
  obtain ⟨hdepart, haction, hconclude⟩ := hfault
  obtain ⟨hgo, hwalk⟩ := walk_departure h hvalid hs ht hfind hdepart
  obtain ⟨hgoAction, hwalkAction⟩ := walk_action c.machine (c.machine.path b.owner t).lca haction
  rw [transitionSteps, code_andThen hdepart, code_andThen (fault_emit _), code_andThen haction,
    code_andThen (fault_emit _), code_emit, code_emit]
  have hpause : c.machine.walk (c.machine.path b.owner t).lca
      [.gap, .comment ("Step 2: Transition action: `" ++ b.actionLine ++ "`.")] =
        some (c.machine.path b.owner t).lca := rfl
  refine Machine.Orderly.append ?_ hgo hwalk
  refine Machine.Orderly.append ?_ (by simp [Stmt.continues]) hpause
  refine Machine.Orderly.append ?_ hgoAction hwalkAction
  refine Machine.Orderly.append (orderly_conclude h ht hconclude hinline) ?_ ?_
  · simpa [Stmt.continues] using continues_enterTowards _
  · simpa [Machine.walk_cons, Machine.step] using walk_enterTowards h hvalid hs ht

/-- The transitions of a pseudo-state in place: there is one, and each is orderly in the state
around, if the pseudo-states in place one level below are. -/
theorem inline_transitions {levels : Nat} (h : c.machine.Grown) (htargets : c.machine.TargetsExist)
    (hvalid : c.machine.problems = []) (hp : (c.machine.kind p).isPseudo)
    (hv : root ∈ c.machine.ancestorsAndSelf v) (hparent : c.machine.parent p = some v)
    (hfault : (c.inline quiet (levels + 1) p).fault = none)
    (hinline : c.OrderlyInPlace (c.inline quiet levels)) :
    ∃ transitions, (c.inline quiet (levels + 1) p).code = [.inlined p transitions] ∧
      (∃ b guard body closed, .block (.behavior b guard) body closed ∈ transitions) ∧
      ∀ b guard body closed, .block (.behavior b guard) body closed ∈ transitions →
        c.machine.Orderly v body := by
  obtain ⟨hne, hleads⟩ := Machine.pseudo_leads_on hvalid hp
  have heach := fault_each_eq_none.mp hfault
  have hcode (b : Behavior) (hb : b ∈ c.machine.behaviorsOf p) :
      ∃ t guard, b.target = some t ∧
        (c.transitionSteps (c.inline quiet levels) quiet true b t).fault = none ∧
        (c.transitionWith (c.inline quiet levels) quiet true b >> emit [.gap]).code =
          c.behaviorCode b guard (c.transitionSteps (c.inline quiet levels) quiet true b t).code ++
          [.gap] := by
    have hfaultb := heach b (List.mem_filter.mpr ⟨hb, hleads b hb⟩)
    rw [fault_andThen, fault_emit, Option.or_none] at hfaultb
    obtain ⟨t, ht⟩ := Option.isSome_iff_exists.mp (hleads b hb)
    obtain ⟨hsteps, guard, -, hcode⟩ := code_transitionWith ht hfaultb
    exact ⟨t, guard, ht, hsteps, by rw [code_andThen hfaultb, hcode, code_emit]⟩
  refine ⟨_, rfl, ?_, ?_⟩
  · obtain ⟨b, hb⟩ := List.exists_mem_of_ne_nil _ hne
    obtain ⟨t, guard, -, -, hblock⟩ := hcode b hb
    refine ⟨b, guard, (c.transitionSteps (c.inline quiet levels) quiet true b t).code, true, ?_⟩
    rw [code_each heach, List.mem_flatMap]
    refine ⟨b, List.mem_filter.mpr ⟨hb, hleads b hb⟩, ?_⟩
    rw [hblock]
    simp [behaviorCode]
  · intro b' guard' body closed hmem
    rw [code_each heach, List.mem_flatMap] at hmem
    obtain ⟨b, hb, hmem⟩ := hmem
    have hb := (List.mem_filter.mp hb).1
    obtain ⟨hmember, howner⟩ := List.mem_filter.mp hb
    obtain ⟨t, guard, ht, hsteps, hblock⟩ := hcode b hb
    simp only [hblock, behaviorCode, List.mem_append, List.mem_cons, reduceCtorEq, Stmt.block.injEq,
      List.not_mem_nil, or_false, false_or] at hmem
    obtain ⟨-, rfl, -⟩ := hmem
    have hroot : root ∈ c.machine.ancestorsAndSelf b.owner := by
      rw [beq_iff_eq.mp howner]
      exact (Machine.root_mem_iff_of_parent hparent).mpr hv
    refine orderly_transitionSteps h hvalid hroot (htargets b hmember t ht) ?_ hsteps hinline
    rw [if_pos rfl, Machine.MayFind, beq_iff_eq.mp howner, if_pos hp, hparent]

/-- Pseudo-states in place are orderly in the state around them, however deep they are nested. -/
theorem orderly_inline (h : c.machine.Grown) (htargets : c.machine.TargetsExist)
    (hvalid : c.machine.problems = []) (levels : Nat) :
    c.OrderlyInPlace (c.inline quiet levels) := by
  induction levels with
  | zero =>
    intro p v _ _ _ hfault
    simp [inline] at hfault
  | succ levels ih =>
    intro p v hp hv hparent hfault
    obtain ⟨transitions, hcode, hsome, hall⟩ :=
      inline_transitions h htargets hvalid hp hv hparent hfault ih
    rw [hcode]
    exact Machine.orderly_inlined hsome hall

end Compiler

/-- The transitions that stand in the body of a function: the behaviors that lead somewhere, in the
body itself or in a pseudo-state that is compiled in place. -/
inductive Offers : List Stmt → List Stmt → Prop
  | here {b : Behavior} {guard : Option String} {body code : List Stmt} {closed : Bool}
      (hb : .block (.behavior b guard) code closed ∈ body) (hleads : b.hasTransition) :
        Offers body code
  | inlined {p : Nat} {b : Behavior} {guard : Option String} {body transitions code : List Stmt}
      {closed : Bool} (hp : .inlined p transitions ∈ body)
      (hb : .block (.behavior b guard) code closed ∈ transitions) : Offers body code

/-- Whether the statement is the block of a behavior that leads somewhere. -/
def Stmt.isTransition : Stmt → Bool
  | .block (.behavior b _) _ _ => b.hasTransition
  | _ => false

/-- A body with the block of a behavior that leads somewhere offers a transition. -/
theorem exists_offers {body : List Stmt} (h : body.any Stmt.isTransition) :
    ∃ code, Offers body code := by
  obtain ⟨stmt, hstmt, hleads⟩ := List.any_eq_true.mp h
  unfold Stmt.isTransition at hleads
  split at hleads
  · exact ⟨_, .here hstmt hleads⟩
  · cases hleads

/-- The states that may be active where the transitions of a function begin. -/
def Machine.BeginsIn (m : Machine) : Routine → Nat → Prop
  | .enter v, active | .exit v, active => active = v
  | .event v _, active => (m.kind active).isState ∧ m.isWithin v active
  | .shared p, active => m.parent p = some active

/-- Whether the statement is neither the block of a behavior nor a pseudo-state that is
compiled in place. -/
def Stmt.isPlain : Stmt → Bool
  | .inlined .. | .block (.behavior ..) .. => false
  | _ => true

/-- Plain statements offer no transition. -/
theorem not_offers_of_isPlain {body code : List Stmt} (h : ∀ stmt ∈ body, stmt.isPlain) :
    ¬ Offers body code := by
  intro hcode
  cases hcode with
  | here hb => simpa [Stmt.isPlain] using h _ hb
  | inlined hp => simpa [Stmt.isPlain] using h _ hp

/-- Code in two parts offers the transitions of both. -/
theorem offers_append {front body code : List Stmt} (h : Offers (front ++ body) code) :
    Offers front code ∨ Offers body code := by
  cases h with
  | here hb hleads =>
    rcases List.mem_append.mp hb with hb | hb
    · exact .inl (.here hb hleads)
    · exact .inr (.here hb hleads)
  | inlined hp hb =>
    rcases List.mem_append.mp hp with hp | hp
    · exact .inl (.inlined hp hb)
    · exact .inr (.inlined hp hb)

namespace Compiler

open Draft
open Machine (root)

variable {c : Compiler} {b : Behavior} {active v : Nat} {trigger : String} {code : List Stmt}

/-- The transitions of a state on a trigger are the steps of its behaviors. -/
theorem offers_behaviorsFor (hfault : (c.behaviorsFor v trigger).fault = none)
    (h : Offers (c.behaviorsFor v trigger).code code) :
    ∃ b ∈ c.machine.behaviorsOn v trigger, ∃ t quiet levels, b.target = some t ∧
      (c.transitionSteps (c.inline quiet levels) quiet true b t).fault = none ∧
      code = (c.transitionSteps (c.inline quiet levels) quiet true b t).code := by
  cases h with
  | here hb hleads =>
    rcases mem_code_behaviorsFor hfault hb with haside | ⟨b, hon, guard, body, heq, hsteps⟩
    · cases haside
    · obtain ⟨hhead, rfl, -⟩ := Stmt.block.inj heq
      obtain ⟨rfl, -⟩ := Head.behavior.inj hhead
      obtain ⟨t, ht⟩ := Option.isSome_iff_exists.mp hleads
      exact ⟨_, hon, t, _, _, ht, hsteps t ht⟩
  | inlined hp hb =>
    rcases mem_code_behaviorsFor hfault hp with haside | ⟨b, -, guard, body, heq, -⟩
    · cases haside
    · cases heq

/-- The transitions of a state on a trigger are orderly from that state and from
everything inside it. -/
theorem orderly_of_behaviorsFor (h : c.machine.Grown) (htargets : c.machine.TargetsExist)
    (hvalid : c.machine.problems = []) (hv : v ∈ c.machine.states)
    (hactive : c.machine.isWithin v active) (hfault : (c.behaviorsFor v trigger).fault = none)
    (hcode : Offers (c.behaviorsFor v trigger).code code) : c.machine.Orderly active code := by
  obtain ⟨b, hon, t, quiet, levels, ht, hsteps, rfl⟩ := offers_behaviorsFor hfault hcode
  obtain ⟨hmember, howner⟩ := List.mem_filter.mp (List.mem_filter.mp hon).1
  have hroot : root ∈ c.machine.ancestorsAndSelf b.owner := by
    rw [beq_iff_eq.mp howner]
    exact Machine.root_mem_of_mem_states hv
  refine orderly_transitionSteps h hvalid hroot (htargets b hmember t ht) ?_ hsteps
    (orderly_inline h htargets hvalid levels)
  rw [if_pos rfl, Machine.MayFind, beq_iff_eq.mp howner,
    if_neg (by simp [Kind.isPseudo, Machine.isState_of_mem_states hv])]
  exact hactive

/-- Taking over the events of a state is plain. -/
theorem isPlain_takeOver (c : Compiler) (v : Nat) : ∀ stmt ∈ c.takeOver v, stmt.isPlain := by
  intro stmt hstmt
  simp only [takeOver, List.mem_append, List.mem_cons, List.mem_map, List.not_mem_nil,
    or_false] at hstmt
  rcases hstmt with ((rfl | rfl) | ⟨event, -, rfl⟩) | rfl <;> rfl

/-- Handing the events of a state back is plain. -/
theorem isPlain_handBack (c : Compiler) (v : Nat) : ∀ stmt ∈ (c.handBack v).code, stmt.isPlain := by
  intro stmt hstmt
  rw [handBack] at hstmt
  split at hstmt
  · rw [List.mem_singleton.mp hstmt]
    rfl
  · split at hstmt
    · simp only [code_emit, List.cons_append, List.nil_append, List.mem_cons, List.mem_map] at hstmt
      rcases hstmt with rfl | rfl | ⟨event, -, rfl⟩ <;> rfl
    · simp [fail] at hstmt

/-- Entering a state is plain. -/
theorem isPlain_enterCall (c : Compiler) (quiet : Bool) (v : Nat) :
    ∀ stmt ∈ c.enterCall quiet v, stmt.isPlain := by
  intro stmt hstmt
  rw [enterCall, List.mem_cons] at hstmt
  rcases hstmt with rfl | hstmt
  · rfl
  · split at hstmt
    · rw [List.mem_singleton.mp hstmt]
      rfl
    · simp at hstmt

/-- A valid machine has no transitions in the functions that leave states. -/
theorem not_offers_exit (h : c.machine.Grown) (hvalid : c.machine.problems = [])
    (hv : v ∈ c.machine.states) (hfault : (c.routineBody (.exit v)).fault = none) :
    ¬ Offers (c.routineBody (.exit v)).code code := by
  intro hcode
  rw [routineBody, fault_andThen, Option.or_eq_none_iff] at hfault
  rw [routineBody, code_andThen hfault.1] at hcode
  have hcode := (offers_append hcode).resolve_right (not_offers_of_isPlain (c.isPlain_handBack v))
  obtain ⟨b, hon, t, -, -, ht, -⟩ := offers_behaviorsFor hfault.1 hcode
  obtain ⟨hb, hexit⟩ := List.mem_filter.mp hon
  have hlt := h.lt_size_of_root_mem (Machine.root_mem_of_mem_states hv)
  simp [Machine.target_eq_none_of_handles_exit hvalid hlt (Machine.isState_of_mem_states hv) hb
    hexit] at ht

/-- The only transition of the start function is the one to the initial state of the root. -/
theorem offers_start (hfault : c.start.fault = none) (hcode : Offers c.start.code code) :
    ∃ i quiet levels, c.machine.initialOf Machine.root = some i ∧
      (c.transitionSteps (c.inline quiet levels) quiet false
        { owner := Machine.root, target := some i } i).fault = none ∧
      code = (c.transitionSteps (c.inline quiet levels) quiet false
        { owner := Machine.root, target := some i } i).code := by
  rw [start, fault_andThen, fault_emit, Option.none_or, startTransition] at hfault
  rw [start, code_andThen (fault_emit _), code_emit, startTransition] at hcode
  have hcode :=
    (offers_append hcode).resolve_left
      (not_offers_of_isPlain (c.isPlain_enterCall true Machine.root))
  cases hi : c.machine.initialOf Machine.root with
  | none =>
    simp only [hi, code_emit] at hcode
    exact absurd hcode (not_offers_of_isPlain (by simp [Stmt.isPlain]))
  | some i =>
    simp only [hi] at hfault hcode
    obtain ⟨hsteps, guard, -, hblock⟩ := code_transitionWith rfl hfault
    refine ⟨i, _, _, rfl, hsteps, ?_⟩
    rw [transition, hblock] at hcode
    cases hcode with
    | here hb =>
      rcases mem_behaviorCode hb with haside | heq
      · cases haside
      · exact (Stmt.block.inj heq).2.1
    | inlined hp =>
      rcases mem_behaviorCode hp with haside | heq
      · cases haside
      · cases heq

/-- The transitions of the start function are orderly from the root. -/
theorem orderly_start (h : c.machine.Grown) (htargets : c.machine.TargetsExist)
    (hvalid : c.machine.problems = []) (hfault : c.start.fault = none)
    (hcode : Offers c.start.code code) :
    c.machine.Orderly Machine.root code := by
  obtain ⟨i, quiet, levels, hi, hsteps, rfl⟩ := offers_start hfault hcode
  have hroot := Machine.self_mem_ancestorsAndSelf c.machine root
  have hrooti := Machine.root_mem_of_initialOf hi
  have hlca := Machine.path_lca_mem_source h hroot hrooti
  rw [Machine.ancestorsAndSelf_of_top (Machine.parent_root _), List.mem_singleton] at hlca
  refine orderly_transitionSteps h hvalid hroot (h.lt_size_of_root_mem hrooti) ?_ hsteps
    (orderly_inline h htargets hvalid levels)
  simpa using hlca.symm

/-- The transitions of every function are orderly from wherever they may begin. -/
theorem orderly_routineBody {r : Routine} (h : c.machine.Grown) (htargets : c.machine.TargetsExist)
    (hvalid : c.machine.problems = []) (hr : r ∈ c.routines)
    (hfault : (c.routineBody r).fault = none) (hactive : c.machine.BeginsIn r active)
    (hcode : Offers (c.routineBody r).code code) :
    c.machine.Orderly active code := by
  obtain ⟨v, hv, rfl | rfl | ⟨event, -, rfl⟩ | ⟨p, hp, rfl⟩⟩ := mem_routines.mp hr
  · obtain rfl : active = v := hactive
    rw [routineBody, fault_andThen, fault_emit, Option.none_or] at hfault
    rw [routineBody, code_andThen (fault_emit _), code_emit] at hcode
    have hself : c.machine.isWithin active active :=
      Machine.isWithin_iff.mpr (Machine.self_mem_ancestorsAndSelf _ _)
    exact orderly_of_behaviorsFor h htargets hvalid hv hself hfault
      ((offers_append hcode).resolve_left (not_offers_of_isPlain (c.isPlain_takeOver active)))
  · exact absurd hcode (not_offers_exit h hvalid hv hfault)
  · exact orderly_of_behaviorsFor h htargets hvalid hv hactive.2 hfault hcode
  · obtain ⟨hparent, hpseudo, -⟩ := Machine.mem_sharedIn.mp hp
    obtain rfl : v = active := Option.some.inj (hparent.symm.trans hactive)
    obtain ⟨transitions, hbody, -, hall⟩ := inline_transitions h htargets hvalid hpseudo
      (Machine.root_mem_of_mem_states hv) hparent hfault (orderly_inline h htargets hvalid _)
    rw [routineBody] at hcode
    change Offers (c.inline false (c.machine.size + 1) p).code code at hcode
    rw [hbody] at hcode
    cases hcode with
    | here hb => simp at hb
    | inlined hp hb =>
      obtain ⟨rfl, rfl⟩ := Stmt.inlined.inj (List.mem_singleton.mp hp)
      exact hall _ _ _ _ hb

end Compiler

/-- In the file of a valid machine every transition leaves and enters states in order: that of the
start function from the root, that of any other function from wherever it may begin. -/
theorem Machine.generated_transitions_orderly {m : Machine} {name : String}
    {additions : List Addition} {config : Config} {expander : Snippet.Expander} {ctx : Context}
    {text : String} (hgrow : (new name).growAll additions = some m) (htargets : m.TargetsExist)
    (hvalid : m.problems = []) (htext : m.generateWith config expander ctx = .ok text) :
    (∀ code, Offers (m.compiler expander ctx).start.code code → m.Orderly root code) ∧
      ∀ r body closed, .block (.routine r) body closed ∈
        ((m.compiler expander ctx).functions config).code →
        ∀ code active, Offers body code → m.BeginsIn r active → m.Orderly active code := by
  have hfault := fault_functions_of_generateWith htext
  obtain ⟨hstart, hroutines⟩ := Compiler.fault_functions.mp hfault
  have hgrown : (m.compiler expander ctx).machine.Grown := (grown_new name).growAll hgrow
  constructor
  · intro code hcode
    exact Compiler.orderly_start hgrown htargets hvalid hstart hcode
  · intro r body closed hblock code active hcode hactive
    obtain ⟨hr, rfl, -⟩ := (Compiler.mem_code_functions hfault).mp hblock
    exact Compiler.orderly_routineBody hgrown htargets hvalid hr (hroutines r hr) hactive hcode

/-- The file of the lamp is generated, the function that handles turning it offers a transition, and
all transitions of that function are orderly. -/
theorem Machine.lamp_turn_orderly :
    (∃ text, lamp.generateWith {} {} {} = .ok text) ∧
      ∃ body, .block (.routine (.event 5 "turn")) body true ∈
        ((lamp.compiler {} {}).functions {}).code ∧
        (∃ code, Offers body code) ∧ ∀ code, Offers body code → lamp.Orderly 5 code := by
  have hok : (lamp.generateWith {} {} {}).toOption.isSome := by decide +kernel
  obtain ⟨text, htext⟩ : ∃ text, lamp.generateWith {} {} {} = .ok text := by
    cases hresult : lamp.generateWith {} {} {} with
    | error e => simp [hresult, Except.toOption] at hok
    | ok text => exact ⟨text, rfl⟩
  obtain ⟨name, additions, hgrow⟩ := lamp_assembled.exists_growAll
  have hblock := (Compiler.mem_code_functions (fault_functions_of_generateWith htext)).mpr
    ⟨(by decide +kernel : .event 5 "turn" ∈ (lamp.compiler {} {}).routines), rfl, rfl⟩
  refine ⟨⟨text, htext⟩, _, hblock, ?_, fun code hcode => ?_⟩
  · exact exists_offers (by decide +kernel)
  · exact (generated_transitions_orderly hgrow (by decide) (by decide +kernel) htext).2
      _ _ _ hblock code 5 hcode ⟨by decide, by decide +kernel⟩

end Statechart
