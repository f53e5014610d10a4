import Statechart.Proofs.Assembly
import Statechart.Proofs.Expansion
import Statechart.Proofs.Routines

/-!
# Where faults of expansion come from

A file is refused with a fault of expansion only if the expander fails on the code of some behavior.
With the expander of a configuration that takes a variable with the name of the machine.
-/

namespace Statechart

namespace Draft

variable {α : Type} {allowed : Fault → Prop} {first second body : Draft}

/-- The fault of the draft, if it has one, is an allowed one. -/
def FailsOnly (allowed : Fault → Prop) (draft : Draft) : Prop :=
  ∀ fault, draft.fault = some fault → allowed fault

namespace FailsOnly

/-- Plain code has no fault. -/
theorem emit (code : List Stmt) : (emit code).FailsOnly allowed := fun _ h => by cases h

/-- A failure has its fault. -/
theorem fail {fault : Fault} (h : allowed fault) : (fail fault).FailsOnly allowed := by
  rintro _ ⟨⟩
  exact h

/-- One draft after another fails as one of them does. -/
theorem andThen (hfirst : first.FailsOnly allowed) (hsecond : second.FailsOnly allowed) :
    (first >> second).FailsOnly allowed := by
  intro fault h
  rw [fault_andThen, Option.or_eq_some_iff] at h
  rcases h with h | ⟨-, h⟩
  · exact hfirst fault h
  · exact hsecond fault h

/-- Going on with a value fails for want of it or as what follows does. -/
theorem given {value : Except Fault α} {rest : α → Draft}
    (hvalue : ∀ fault, value = .error fault → allowed fault)
    (hrest : ∀ a, (rest a).FailsOnly allowed) : (given value rest).FailsOnly allowed := by
  cases value with
  | error fault => exact fail (hvalue fault rfl)
  | ok a => exact hrest a

/-- Drafts for elements fail as one of them does. -/
theorem each {xs : List α} {f : α → Draft} (h : ∀ x, (f x).FailsOnly allowed) :
    (each xs f).FailsOnly allowed := by
  intro fault hfault
  obtain ⟨x, -, hx⟩ := exists_of_fault_each hfault
  exact h x fault hx

/-- A block fails as its body does. -/
theorem block (head : Head) (hbody : body.FailsOnly allowed) :
    (block head body).FailsOnly allowed := hbody

end FailsOnly

end Draft

namespace Compiler

open Draft

variable {c : Compiler} {quiet check : Bool} {b : Behavior}

/-- The fault breaks an invariant, or the expander fails in the way it says. -/
def Accounts (c : Compiler) : Fault → Prop
  | .broken _ _ => True
  | .expansion _ e => ∃ code, c.expander.expand c.ctx code = .error e

/-- What is made of a value fails as the value does. -/
theorem accounts_of_map {α β : Type} {value : Except Fault α} {f : α → β} {fault : Fault}
    (h : ∀ fault, value = .error fault → c.Accounts fault) (herror : value.map f = .error fault) :
    c.Accounts fault := by
  cases value with
  | error other =>
    cases herror
    exact h _ rfl
  | ok a => cases herror

/-- Code that cannot be expanded fails as the expander does. -/
theorem accounts_expand {code : String} (fault : Fault) (h : c.expand b code = .error fault) :
    c.Accounts fault := by
  rw [expand] at h
  cases hcode : c.expander.expand c.ctx code with
  | error e =>
    rw [hcode] at h
    cases h
    exact ⟨code, hcode⟩
  | ok text =>
    rw [hcode] at h
    cases h

/-- A behavior fails for its guard or as its body does. -/
theorem accounts_behaviorBlock {body : Unit → Draft} (h : (body ()).FailsOnly c.Accounts) :
    (c.behaviorBlock b body).FailsOnly c.Accounts := by
  refine .andThen (.emit _) (.given (fun fault herror => ?_) fun guard => .block _ h)
  rw [guardOf] at herror
  split at herror
  · exact accounts_of_map accounts_expand herror
  · cases herror

/-- An action fails as the expander does. -/
theorem accounts_action (c : Compiler) (b : Behavior) : (c.action b).FailsOnly c.Accounts := by
  unfold action
  split
  · exact .given accounts_expand fun code => .emit _
  · exact .emit []

/-- Leaving states expands nothing. -/
theorem accounts_leave (source : Nat) (path : Path) :
    (c.leave source path).FailsOnly c.Accounts := by
  unfold leave
  split
  · exact .fail trivial
  · exact .emit _
  · split
    · exact .emit _
    · exact .fail trivial

/-- A transition fails for its guard or its action, or as what it goes on with. -/
theorem accounts_transitionWith {inline : Nat → Draft}
    (hinline : ∀ p, (inline p).FailsOnly c.Accounts) :
    (c.transitionWith inline quiet check b).FailsOnly c.Accounts := by
  unfold transitionWith
  split
  · exact .fail trivial
  · next target _ =>
    have hdeparture : (c.departure check b.owner target).FailsOnly c.Accounts := by
      unfold departure
      dsimp only
      split
      · split
        · exact .andThen (.emit _) (accounts_leave _ _)
        · exact .emit _
      · exact .fail trivial
    have hconclude : (c.conclude inline quiet target).FailsOnly c.Accounts := by
      unfold conclude
      split
      · exact .emit _
      · split
        · exact .emit _
        · exact hinline _
    exact accounts_behaviorBlock
      (.andThen hdeparture (.andThen (.emit _) (.andThen (accounts_action c b)
      (.andThen (.emit _) hconclude))))

/-- Pseudo-states in place fail as their transitions do, however deep. -/
theorem accounts_inline (quiet : Bool) (levels p : Nat) :
    (c.inline quiet levels p).FailsOnly c.Accounts := by
  induction levels generalizing p with
  | zero => exact .fail trivial
  | succ levels ih =>
    have hbody : (each ((c.machine.behaviorsOf p).filter (·.hasTransition)) fun b =>
        c.transitionWith (c.inline quiet levels) quiet true b >> emit [.gap]).FailsOnly
          c.Accounts :=
      .each fun b => .andThen (accounts_transitionWith ih) (.emit _)
    exact hbody

/-- A transition, with the pseudo-states in place behind it, breaks an invariant or fails as the
expander does. -/
theorem accounts_transition (depth : Nat) (b : Behavior) :
    (c.transition quiet check depth b).FailsOnly c.Accounts :=
  accounts_transitionWith fun p => accounts_inline quiet _ p

/-- A behavior without a transition fails for its guard or its action. -/
theorem accounts_reaction (trigger : String) (b : Behavior) :
    (c.reaction trigger quiet b).FailsOnly c.Accounts := by
  refine .given (fun fault herror => ?_) fun flagged =>
    accounts_behaviorBlock (.andThen (.emit _) (.andThen (accounts_action c b) (.emit _)))
  split at herror
  · rw [usesFlag] at herror
    split at herror
    · exact accounts_of_map accounts_expand herror
    · cases herror
  · cases herror

/-- The behaviors of a state on a trigger fail as one of them does. -/
theorem accounts_behaviorsFor (v : Nat) (trigger : String) :
    (c.behaviorsFor v trigger).FailsOnly c.Accounts := by
  refine .andThen (.emit _) (.each fun b => .andThen ?_ (.emit _))
  split
  · exact accounts_transition 0 b
  · exact accounts_reaction trigger b

/-- The start function fails as the first transition does. -/
theorem accounts_start (c : Compiler) : c.start.FailsOnly c.Accounts := by
  refine .andThen (.emit _) ?_
  unfold startTransition
  split
  · exact .emit _
  · exact accounts_transition 0 _

/-- Every function fails as one of its behaviors does. -/
theorem accounts_routineBody (c : Compiler) (r : Routine) :
    (c.routineBody r).FailsOnly c.Accounts := by
  cases r with
  | enter v => exact .andThen (.emit _) (accounts_behaviorsFor v _)
  | exit v =>
    refine .andThen (accounts_behaviorsFor v _) ?_
    unfold handBack
    split
    · exact .emit _
    · split
      · exact .emit _
      · exact .fail trivial
  | event v event => exact accounts_behaviorsFor v event
  | shared p => exact accounts_inline false _ p

end Compiler

/-- A fault of expansion is one of the expander. -/
theorem Machine.expand_error_of_generateWith {m : Machine} {config : Config} {x : Snippet.Expander}
    {ctx : Context} {b : Behavior} {e : Snippet.ExpansionError}
    (h : m.generateWith config x ctx = .error (.fault (.expansion b e))) :
    ∃ code, x.expand ctx code = .error e := by
  have hfault := fault_functions_of_generateWith_error h
  rcases Compiler.exists_of_fault_functions hfault with hstart | ⟨r, -, hbody⟩
  · exact Compiler.accounts_start _ _ hstart
  · exact Compiler.accounts_routineBody _ r _ hbody

/-- Code is refused by the expander of a configuration only because of a variable with the name of
the machine. If there is none, all code can be expanded; if there is one, some cannot. -/
theorem Config.expansion_fails_only_by_self (config : Config) :
    (∀ (m : Machine) (b : Behavior) (e : Snippet.ExpansionError),
      m.generate config = .error (.fault (.expansion b e)) →
        ∃ vars, config.autoVars = .ok vars ∧ "self" ∈ vars.map AutoVar.name) ∧
    ∀ vars, config.autoVars = .ok vars → ∃ x, config.expander = .ok x ∧
      ((∀ code, ∃ text, x.expand {} code = .ok text) ↔ "self" ∉ vars.map AutoVar.name) := by
  constructor
  · intro m b e h
    rw [Machine.generate] at h
    split at h
    · next x _ hx =>
      rw [expander] at hx
      cases hvars : config.autoVars with
      | error e =>
        rw [hvars] at hx
        cases hx
      | ok vars =>
        rw [hvars] at hx
        cases hx
        refine ⟨vars, rfl, ?_⟩
        by_contra hself
        obtain ⟨code, hcode⟩ := Machine.expand_error_of_generateWith h
        obtain ⟨text, htext⟩ := expanderFor_total_iff.mpr hself code
        cases hcode.symm.trans htext
    · cases h
    · cases h
  · intro vars hvars
    have hexpander : config.expander = .ok (expanderFor vars) := by
      rw [expander, hvars]
      rfl
    exact ⟨expanderFor vars, hexpander, expanderFor_total_iff⟩

/-- The guard of the lamp cannot be expanded next to a variable with the name of the machine, and
can without it. -/
theorem Config.lamp_guard_fails_by_self :
    (Machine.lamp.generate { autoExpandedVars := "warm: bool\nself: Lamp" } =
        .error (.fault
          (.expansion { owner := 7, guard := some "warm", target := some 6 }
            (.recursionLimit "self"))) ∧
      ∃ vars, ({ autoExpandedVars := "warm: bool\nself: Lamp" } : Config).autoVars = .ok vars ∧
        "self" ∈ vars.map AutoVar.name) ∧
    ∃ x, ({ autoExpandedVars := "warm: bool" } : Config).expander = .ok x ∧
      ∀ code, ∃ text, x.expand {} code = .ok text := by
  have hfault : Machine.lamp.generate { autoExpandedVars := "warm: bool\nself: Lamp" } =
      .error (.fault
        (.expansion { owner := 7, guard := some "warm", target := some 6 }
          (.recursionLimit "self"))) := by
    decide +kernel
  have hvars : ({ autoExpandedVars := "warm: bool" } : Config).autoVars =
    .ok [⟨"warm", "bool"⟩] := by decide +kernel
  obtain ⟨x, hx, htotal⟩ :=
    (Config.expansion_fails_only_by_self { autoExpandedVars := "warm: bool" }).2 _ hvars
  exact ⟨⟨hfault, (Config.expansion_fails_only_by_self _).1 _ _ _ hfault⟩, x, hx,
    htotal.mpr (by decide)⟩

end Statechart
