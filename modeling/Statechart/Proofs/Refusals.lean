import Statechart.Proofs.Built
import Statechart.Proofs.Inlining
import Statechart.Proofs.Leaving

/-!
# Why a valid machine is refused

A machine without problems is refused for names that collide, for variables that cannot be read and
for code that cannot be expanded or written. One more reason is left, which validation misses: an
exit point right in the root with a transition to the root. That transition is to leave the root in
order to enter it again, and since nothing can be left, its path does not start at the exit point,
as compiling expects. Validation keeps all other invariants of compiling.
-/

namespace Statechart

namespace Machine

variable {m : Machine} {s t : Nat} {invariant : Invariant}

/-- An exit point right in the root with a transition to the root. -/
structure LeavesRoot (m : Machine) (v : Nat) : Prop where
  exitPoint : (m.kind v).isExitPoint
  inRoot : m.parent v = some root
  toRoot : ∃ b ∈ m.behaviorsOf v, b.target = some root

/-- The root is not an exit point. -/
theorem ne_root_of_isExitPoint (h : m.IsTree) (hexit : (m.kind s).isExitPoint) : s ≠ root := by
  rintro rfl
  obtain ⟨name, hname⟩ := h.rootKind
  simp [hname, Kind.isExitPoint] at hexit

/-- The path from an exit point starts at the exit point, unless it leads from the
root's to the root. -/
theorem path_exits_head? (h : m.IsTree) (hvalid : m.problems = []) (hs : s < m.size)
    (ht : t < m.size) (hexit : (m.kind s).isExitPoint)
    (hroot : ¬ (m.parent s = some root ∧ t = root)) :
    (m.path s t).exits.head? = some s := by
  have hroots := h.root_mem_ancestorsAndSelf hs
  have hroott := h.root_mem_ancestorsAndSelf ht
  have hstate := path_lca_isState h.grown hvalid hroots hroott
  rcases path_cases h.grown hroots hroott with ⟨hself, rfl, -⟩ | ⟨lca, hpath, hmem, -, -⟩
  · rw [isSelfTransition, Bool.or_eq_true, Bool.and_eq_true, beq_iff_eq, beq_iff_eq] at hself
    rcases hself with hsame | ⟨-, hparent⟩
    · exact absurd hsame (ne_root_of_isExitPoint h hexit)
    · exact absurd ⟨hparent, rfl⟩ hroot
  · have hne : s ≠ lca := by
      rintro rfl
      have hpseudo := isPseudo_of_isExitPoint hexit
      rw [Kind.isPseudo, Bool.not_eq_true'] at hpseudo
      rw [hpath, pathThrough_eq, hpseudo] at hstate
      cases hstate
    obtain ⟨p, hp, -⟩ := exists_parent_of_mem hmem hne
    rw [hpath, pathThrough_eq, below_of_parent hp hne, List.head?_cons]

/-- How to leave states is not known only for a transition from an exit point of the
root to the root. -/
theorem directExit_error (h : m.IsTree) (hvalid : m.problems = []) (hs : s < m.size)
    (ht : t < m.size) (herror : m.directExit s (m.path s t) = .error invariant) :
    invariant = .pathStartsAtSource ∧ (m.kind s).isExitPoint ∧ m.parent s = some root ∧
      t = root := by
  rw [directExit] at herror
  split at herror
  · next hexit =>
    obtain ⟨p, hp⟩ := h.hasParent s (ne_root_of_isExitPoint h hexit) hs
    split at herror
    · next hhead =>
      refine ⟨(Except.error.inj herror).symm, hexit, ?_⟩
      by_contra hroot
      simp [path_exits_head? h hvalid hs ht hexit hroot] at hhead
    · simp [hp] at herror
  · cases herror

end Machine

namespace Compiler

open Draft

variable {c : Compiler} {quiet check : Bool} {b : Behavior} {p t v w : Nat} {trigger : String}
  {invariant : Invariant}

/-- Leaving states breaks an invariant only on the way from an exit point of the
root to the root. -/
theorem fault_leave (h : c.machine.IsTree) (hvalid : c.machine.problems = [])
    (hv : v < c.machine.size) (ht : t < c.machine.size)
    (hfault : (c.leave v (c.machine.path v t)).fault = some (.broken w invariant)) :
    w = v ∧ invariant = .pathStartsAtSource ∧ (c.machine.kind v).isExitPoint ∧
      c.machine.parent v = some Machine.root ∧ t = Machine.root := by
  rw [leave] at hfault
  split at hfault
  · next herror =>
    obtain ⟨rfl, rfl⟩ := Fault.broken.inj (Option.some.inj hfault)
    exact ⟨rfl, Machine.directExit_error h hvalid hv ht herror⟩
  · cases hfault
  · rw [if_pos (Machine.path_lca_isState h.grown hvalid (h.root_mem_ancestorsAndSelf hv)
      (h.root_mem_ancestorsAndSelf ht))] at hfault
    cases hfault

/-- The invariants that compiling a valid machine may break, and where: want of levels comes up
here, since it is excluded for the file as a whole only. -/
def MayBreak (c : Compiler) (w : Nat) (invariant : Invariant) : Prop :=
  invariant = .inliningEnds ∨ invariant = .pathStartsAtSource ∧ c.machine.LeavesRoot w

/-- A transition of the machine breaks no other invariant, if pseudo-states in place do not. -/
theorem mayBreak_transitionWith {inline : Nat → Draft} (h : c.machine.IsTree)
    (htargets : c.machine.TargetsExist) (hvalid : c.machine.problems = [])
    (hb : b ∈ c.machine.behaviors) (hleads : b.hasTransition)
    (hinline : ∀ p, (inline p).fault = some (.broken w invariant) → c.MayBreak w invariant)
    (hfault : (c.transitionWith inline quiet check b).fault = some (.broken w invariant)) :
    c.MayBreak w invariant := by
  obtain ⟨t, ht, ⟨hnone, -⟩ | hleave | ⟨p, -, -, hfault⟩⟩ :=
    exists_of_fault_transitionWith hleads hfault
  · cases hnone.symm.trans (h.hasPath b.owner t)
  · obtain ⟨rfl, hstart, hexit, hparent, rfl⟩ :=
      fault_leave h hvalid (h.ownerExists b hb) (htargets b hb t ht) hleave
    exact .inr ⟨hstart, hexit, hparent, b, List.mem_filter.mpr ⟨hb, beq_self_eq_true _⟩, ht⟩
  · exact hinline p hfault

/-- Pseudo-states in place break no other invariant, however deep they are nested. -/
theorem mayBreak_inline {levels : Nat} (h : c.machine.IsTree) (htargets : c.machine.TargetsExist)
    (hvalid : c.machine.problems = [])
    (hfault : (c.inline quiet levels p).fault = some (.broken w invariant)) :
    c.MayBreak w invariant := by
  induction levels generalizing p with
  | zero => exact .inl (Fault.broken.inj (Option.some.inj hfault)).2.symm
  | succ levels ih =>
    obtain ⟨b, hb, hfault⟩ := exists_of_fault_each (show (each _ _).fault = _ from hfault)
    rw [fault_andThen, fault_emit, Option.or_none] at hfault
    obtain ⟨hb, hleads⟩ := List.mem_filter.mp hb
    exact mayBreak_transitionWith h htargets hvalid (List.mem_filter.mp hb).1 hleads
      (fun p hp => ih hp) hfault

/-- The behaviors of a state break no other invariant. -/
theorem mayBreak_behaviorsFor (h : c.machine.IsTree) (htargets : c.machine.TargetsExist)
    (hvalid : c.machine.problems = [])
    (hfault : (c.behaviorsFor v trigger).fault = some (.broken w invariant)) :
    c.MayBreak w invariant := by
  rw [behaviorsFor, fault_andThen, fault_emit, Option.none_or] at hfault
  obtain ⟨b, hb, hfault⟩ := exists_of_fault_each hfault
  rw [fault_andThen, fault_emit, Option.or_none] at hfault
  have hmember := (List.mem_filter.mp (List.mem_filter.mp hb).1).1
  split at hfault
  · next hleads =>
    exact mayBreak_transitionWith h htargets hvalid hmember hleads
      (fun p hp => mayBreak_inline h htargets hvalid hp) hfault
  · exact absurd hfault fault_reaction_ne

/-- The start function breaks no other invariant: the root, from which it starts, is
not an exit point. -/
theorem mayBreak_start (h : c.machine.IsTree) (htargets : c.machine.TargetsExist)
    (hvalid : c.machine.problems = []) (hfault : c.start.fault = some (.broken w invariant)) :
    c.MayBreak w invariant := by
  rw [start, fault_andThen, fault_emit, Option.none_or, startTransition] at hfault
  split at hfault
  · cases hfault
  · next i hi =>
    have hlt := Machine.lt_size_of_parent (Machine.initialOf_spec hi).1
    obtain ⟨t, ht, ⟨hnone, -⟩ | hleave | ⟨p, -, -, hfault⟩⟩ :=
      exists_of_fault_transitionWith rfl hfault
    · cases hnone.symm.trans (h.hasPath _ t)
    · obtain rfl : i = t := Option.some.inj ht
      obtain ⟨-, -, hexit, -⟩ := fault_leave h hvalid h.root_lt_size hlt hleave
      exact absurd rfl (Machine.ne_root_of_isExitPoint h hexit)
    · exact mayBreak_inline h htargets hvalid hfault

/-- In a valid machine states hand back to the states around them. -/
theorem fault_handBack (h : c.machine.IsTree) (hvalid : c.machine.problems = []) (v : Nat) :
    (c.handBack v).fault = none := by
  rw [handBack, h.holder_eq_parent]
  split
  · rfl
  · next p hp =>
    rw [if_pos (Machine.isState_of_parent hvalid hp)]
    rfl

/-- The function of a routine breaks no other invariant. -/
theorem mayBreak_routineBody {r : Routine} (h : c.machine.IsTree)
    (htargets : c.machine.TargetsExist) (hvalid : c.machine.problems = [])
    (hfault : (c.routineBody r).fault = some (.broken w invariant)) :
    c.MayBreak w invariant := by
  cases r with
  | enter v =>
    rw [routineBody, fault_andThen, fault_emit, Option.none_or] at hfault
    exact mayBreak_behaviorsFor h htargets hvalid hfault
  | exit v =>
    rw [routineBody, fault_andThen, fault_handBack h hvalid, Option.or_none] at hfault
    exact mayBreak_behaviorsFor h htargets hvalid hfault
  | event v event => exact mayBreak_behaviorsFor h htargets hvalid hfault
  | shared p => exact mayBreak_inline h htargets hvalid hfault

/-- The functions of a valid machine break an invariant only at an exit point of the root that
leads to the root. -/
theorem fault_functions_of_valid {config : Config} (h : c.machine.IsTree)
    (htargets : c.machine.TargetsExist) (hvalid : c.machine.problems = [])
    (hplan : c.plan = c.machine.plan)
    (hfault : (c.functions config).fault = some (.broken w invariant)) :
    invariant = .pathStartsAtSource ∧ c.machine.LeavesRoot w := by
  rcases exists_of_fault_functions hfault with hstart | ⟨r, hr, hbody⟩
  · refine (mayBreak_start h htargets hvalid hstart).resolve_left ?_
    rintro rfl
    exact fault_start_ne hplan hstart
  · refine (mayBreak_routineBody h htargets hvalid hbody).resolve_left ?_
    rintro rfl
    exact fault_routineBody_ne hplan hr hbody

end Compiler

/-- The machine of a document, if it is valid, is refused for a collision of names, for a variable
that cannot be read, for code that cannot be expanded or freed of its indentation, or for an exit
point of the root that leads to the root. -/
theorem ModelDoc.generate_error_of_valid {model : ModelDoc} {m : Machine} {config : Config}
    {e : CompileError} (hbuild : model.build = .ok m) (hvalid : m.problems = [])
    (herror : m.generate config = .error e) :
    (∃ x, e = .collision x) ∨ (∃ x, e = .autoVar x) ∨ (∃ b x, e = .fault (.expansion b x)) ∨
      e = .unevenIndent ∨ ∃ v, e = .fault (.broken v .pathStartsAtSource) ∧ m.LeavesRoot v := by
  have htree := (assembled_of_build hbuild).isTree
  have htargets := targetsExist_of_build hbuild
  rw [Machine.generate, hvalid] at herror
  cases hexpander : config.expander with
  | error x =>
    simp only [hexpander, Except.error.injEq] at herror
    exact .inr (.inl ⟨x, herror.symm⟩)
  | ok expander =>
    simp only [hexpander] at herror
    rcases Machine.generateWith_error_cases herror with
      hcollision | hindent | hvar | ⟨fault, rfl, hfault⟩
    · exact .inl hcollision
    · exact .inr (.inr (.inr (.inl hindent)))
    · exact .inr (.inl hvar)
    · cases fault with
      | expansion b x => exact .inr (.inr (.inl ⟨b, x, rfl⟩))
      | broken v invariant =>
        obtain ⟨rfl, hleaves⟩ :=
          Compiler.fault_functions_of_valid (c := m.compiler expander {}) htree htargets hvalid
            rfl hfault
        exact .inr (.inr (.inr (.inr ⟨v, rfl, hleaves⟩)))

/-- A machine that can be left from its only state, through an exit point that leads
back to the root. -/
def outletModel : ModelDoc where
  name := "Outlet"
  vertices := [
    .initial [{ target := some "Idle" }],
    .state "Idle" [{ triggers := ["leave"], target := some "ROOT.ExitPoint(out)" }] [],
    .point .exit "out" [{ target := some "ROOT" }]]

/-- The machine has no problems, and still compiling it breaks an invariant. -/
theorem outletModel_breaks_invariant :
    ∃ m, outletModel.build = .ok m ∧ m.problems = [] ∧
      m.generate {} = .error (.fault (.broken 3 .pathStartsAtSource)) := by
  refine ⟨outletModel.skeleton.finish, ?_⟩
  decide +kernel

/-- The machine is refused for the exit point in its root. -/
theorem outletModel_leavesRoot :
    ∃ m, outletModel.build = .ok m ∧ m.problems = [] ∧ (∃ e, m.generate {} = .error e) ∧
      m.LeavesRoot 3 := by
  have hfacts : outletModel.build = .ok outletModel.skeleton.finish ∧
      outletModel.skeleton.finish.problems = [] ∧
      outletModel.skeleton.finish.generate {} =
        .error (.fault (.broken 3 .pathStartsAtSource)) := by
    decide +kernel
  obtain ⟨hbuild, hvalid, herror⟩ := hfacts
  refine ⟨_, hbuild, hvalid, ⟨_, herror⟩, ?_⟩
  rcases ModelDoc.generate_error_of_valid hbuild hvalid herror with
    ⟨_, h⟩ | ⟨_, h⟩ | ⟨_, _, h⟩ | h | ⟨v, h, hleaves⟩
  · cases h
  · cases h
  · cases h
  · cases h
  · obtain ⟨rfl, -⟩ := Fault.broken.inj (CompileError.fault.inj h)
    exact hleaves

end Statechart
