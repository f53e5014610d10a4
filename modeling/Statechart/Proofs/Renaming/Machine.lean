import Statechart.Compile.Plan
import Statechart.Machine.Events
import Statechart.Machine.Validation
import Statechart.Proofs.Assembly
import Statechart.Proofs.Sorting
import Statechart.Proofs.States
import Statechart.Proofs.Validity
import Statechart.Transition.Exit

/-!
# Machines that differ in the numbers of their vertices

Two machines are the same up to a renaming of vertices if kinds, parents and behaviors agree along
it. The order in which vertices are declared may then differ, so what is read off the list of all
vertices agrees only up to order. Everything that is sorted by description, or that is found by
climbing the tree, agrees exactly, as long as descriptions are unique.
-/

namespace Statechart

/-- The description of a vertex that lies in a vertex of the given description. -/
def Kind.describeIn (parent : String) : Kind → String
  | root _ => "ROOT"
  | state name => name
  | kind => parent ++ kind.placeName

/-- A behavior with other numbers for vertices. -/
def Behavior.rename (f : Nat → Nat) (b : Behavior) : Behavior :=
  { b with owner := f b.owner, target := b.target.map f }

/-- A path with other numbers for vertices. -/
def Path.rename (f : Nat → Nat) (path : Path) : Path :=
  ⟨f path.lca, path.exits.map f, path.enters.map f⟩

namespace Behavior

variable (f : Nat → Nat) (b : Behavior)

/-- The owner of a renamed behavior is the renamed owner. -/
@[simp] theorem owner_rename : (b.rename f).owner = f b.owner := rfl

/-- The target of a renamed behavior is the renamed target, if there is one. -/
@[simp] theorem target_rename : (b.rename f).target = b.target.map f := rfl

/-- Renaming keeps the triggers of a behavior. -/
@[simp] theorem triggers_rename : (b.rename f).triggers = b.triggers := rfl

/-- Renaming keeps the guard of a behavior. -/
@[simp] theorem guard_rename : (b.rename f).guard = b.guard := rfl

/-- Renaming keeps the action of a behavior. -/
@[simp] theorem action_rename : (b.rename f).action = b.action := rfl

/-- Whether a behavior has a guard does not depend on numbers. -/
@[simp] theorem hasGuard_rename : (b.rename f).hasGuard = b.hasGuard := rfl

/-- Whether a behavior has an action does not depend on numbers. -/
@[simp] theorem hasAction_rename : (b.rename f).hasAction = b.hasAction := rfl

/-- How the action of a behavior is shown does not depend on numbers. -/
@[simp] theorem actionLine_rename : (b.rename f).actionLine = b.actionLine := rfl

/-- Whether a behavior leads somewhere does not depend on numbers. -/
@[simp] theorem hasTransition_rename : (b.rename f).hasTransition = b.hasTransition := by
  simp [Behavior.rename, Behavior.hasTransition]

end Behavior

namespace Machine

/-- No two vertices have the same description. -/
def Distinct (m : Machine) : Prop := ∀ v < m.size, ∀ w < m.size, m.describe v = m.describe w → v = w

/-- The machines are the same, with `f v` in the second one for `v` in the first one. -/
structure Renaming (m m' : Machine) (f : Nat → Nat) : Prop where
  root : f root = root
  injective : ∀ {v w : Nat}, f v = f w → v = w
  ids : m'.ids.Perm (m.ids.map f)
  kind : ∀ v, m'.kind (f v) = m.kind v
  parent : ∀ v, m'.parent (f v) = (m.parent v).map f
  behaviorsOf : ∀ v, m'.behaviorsOf (f v) = (m.behaviorsOf v).map (Behavior.rename f)
  tree : m.IsTree
  tree' : m'.IsTree
  distinct : m.Distinct

variable {m m' : Machine} {f : Nat → Nat}

/-- The description of a vertex by what it is and by the vertex around it. -/
theorem describe_eq (m : Machine) (v : Nat) :
    m.describe v = (m.kind v).describeIn ((m.parent v).elim "?" m.describe) := by
  rw [describe]
  cases m.kind v with
  | root name => rfl
  | state name => rfl
  | initial | point | final =>
    refine congrArg (· ++ Kind.placeName _) ?_
    split
    · next hp => rw [hp, Option.elim_some]
    · next hp => rw [hp, Option.elim_none]

/-- Descriptions are the same where kinds and parents are, all the way up to the root. -/
theorem describe_of_agree {S : Nat → Prop} (hkind : ∀ v, S v → m'.kind (f v) = m.kind v)
    (hparent : ∀ v, S v → m'.parent (f v) = (m.parent v).map f)
    (hup : ∀ v p, S v → m.parent v = some p → S p) {v : Nat} (hv : S v) :
    m'.describe (f v) = m.describe v := by
  induction v using climb (m := m) with
  | step v ih =>
    have hplace : (m'.parent (f v)).elim "?" m'.describe = (m.parent v).elim "?" m.describe := by
      rw [hparent v hv]
      cases hp : m.parent v with
      | none => rfl
      | some p => exact ih p hp (hup v p hv hp)
    rw [describe_eq, describe_eq, hkind v hv, hplace]

namespace Renaming

variable (h : m.Renaming m' f)
include h

/-- Vertices are the same exactly if they are under other numbers. -/
theorem eq_iff {v w : Nat} : f v = f w ↔ v = w := ⟨h.injective, congrArg f⟩

/-- Vertices are in use exactly if they are under other numbers. -/
theorem lt_size_iff (v : Nat) : f v < m'.size ↔ v < m.size := by
  have hmem : f v ∈ m'.ids ↔ f v ∈ m.ids.map f := h.ids.mem_iff
  simpa [Machine.ids, h.eq_iff] using hmem

/-- Chains of ancestors are the same. -/
theorem ancestorsAndSelf (v : Nat) : m'.ancestorsAndSelf (f v) = (m.ancestorsAndSelf v).map f := by
  induction v using climb (m := m) with
  | step v ih =>
    cases hp : m.parent v with
    | none =>
      have hp' : m'.parent (f v) = none := by rw [h.parent, hp, Option.map_none]
      rw [ancestorsAndSelf_of_top hp, ancestorsAndSelf_of_top hp', List.map_singleton]
    | some p =>
      have hp' : m'.parent (f v) = some (f p) := by rw [h.parent, hp, Option.map_some]
      rw [ancestorsAndSelf_of_parent hp, ancestorsAndSelf_of_parent hp', ih p hp, List.map_cons]

/-- The vertices around a vertex are the same. -/
theorem ancestors (v : Nat) : m'.ancestors (f v) = (m.ancestors v).map f := by
  rw [Machine.ancestors, h.ancestorsAndSelf, Machine.ancestors, List.map_tail]

/-- Vertices are put in the same ones. -/
theorem holder (v : Nat) : m'.holder (f v) = (m.holder v).map f := by
  rw [h.tree'.holder_eq_parent, h.tree.holder_eq_parent, h.parent]

/-- Descriptions are the same. -/
theorem describe (v : Nat) : m'.describe (f v) = m.describe v :=
  describe_of_agree (S := fun _ => True) (fun v _ => h.kind v) (fun v _ => h.parent v)
    (fun _ _ _ _ => trivial) trivial

/-- The children of a vertex are the same, perhaps in another order. -/
theorem children (v : Nat) : (m'.children (f v)).Perm ((m.children v).map f) := by
  have hfilter := h.ids.filter fun c => m'.parent c == some (f v)
  rw [List.filter_map] at hfilter
  have hpred : ((fun c => m'.parent c == some (f v)) ∘ f) = fun c => m.parent c == some v := by
    funext c
    rw [Function.comp_apply, h.parent, Bool.eq_iff_iff, beq_iff_eq, beq_iff_eq]
    cases m.parent c <;> simp [h.eq_iff]
  rwa [hpred] at hfilter

/-- A vertex has something inside it in both machines or in none. -/
theorem isEmpty_children (v : Nat) : (m'.children (f v)).isEmpty = (m.children v).isEmpty := by
  rw [Bool.eq_iff_iff, List.isEmpty_iff, List.isEmpty_iff, ← List.length_eq_zero_iff,
    (h.children v).length_eq, List.length_map, List.length_eq_zero_iff]

/-- Sorting by description takes no notice of numbers. -/
theorem sortByDescription_map (vs : List Nat) :
    m'.sortByDescription (vs.map f) = (m.sortByDescription vs).map f := by
  have hinsert (v : Nat) (ws : List Nat) :
      m'.insertByDescription (f v) (ws.map f) = (m.insertByDescription v ws).map f := by
    induction ws with
    | nil => rfl
    | cons w rest ih =>
      rw [List.map_cons, insertByDescription, insertByDescription, h.describe, h.describe, ih]
      split <;> rfl
  induction vs with
  | nil => rfl
  | cons v rest ih =>
    change m'.insertByDescription (f v) (m'.sortByDescription (rest.map f)) = _
    rw [ih, hinsert]
    rfl

/-- Vertices with other numbers are sorted alike, whatever their order was. -/
theorem sortByDescription {vs vs' : List Nat} (hperm : vs'.Perm (vs.map f))
    (hlt : ∀ v ∈ vs, v < m.size) :
    m'.sortByDescription vs' = (m.sortByDescription vs).map f := by
  rw [← h.sortByDescription_map]
  refine sortByDescription_eq_of_perm hperm fun v hv w hw hdesc => ?_
  obtain ⟨v, hvs, rfl⟩ := List.mem_map.mp (hperm.mem_iff.mp hv)
  obtain ⟨w, hws, rfl⟩ := List.mem_map.mp (hperm.mem_iff.mp hw)
  rw [h.describe, h.describe] at hdesc
  rw [h.distinct v (hlt v hvs) w (hlt w hws) hdesc]

/-- Children in the order of their descriptions are the same. -/
theorem sortedChildren (v : Nat) : m'.sortedChildren (f v) = (m.sortedChildren v).map f :=
  h.sortByDescription (h.children v) fun _ hc => lt_size_of_parent (mem_children.mp hc)

/-- Pseudo-states right inside a vertex are the same. -/
theorem pseudoChildren (v : Nat) : m'.pseudoChildren (f v) = (m.pseudoChildren v).map f := by
  have hperm : ((m'.children (f v)).filter fun c => (m'.kind c).isPseudo).Perm
      (((m.children v).filter fun c => (m.kind c).isPseudo).map f) := by
    have hfilter := (h.children v).filter fun c => (m'.kind c).isPseudo
    rw [List.filter_map] at hfilter
    have hpred : ((fun c => (m'.kind c).isPseudo) ∘ f) = fun c => (m.kind c).isPseudo := by
      funext c
      rw [Function.comp_apply, h.kind]
    rwa [hpred] at hfilter
  exact h.sortByDescription hperm fun c hc =>
    lt_size_of_parent (mem_children.mp (List.mem_filter.mp hc).1)

/-- The states inside a vertex are the same. -/
theorem statesWithin (v : Nat) : m'.statesWithin (f v) = (m.statesWithin v).map f := by
  induction v using descend (m := m) with
  | step v ih =>
    by_cases hv : (m.kind v).isState
    · have hv' : (m'.kind (f v)).isState := by rwa [h.kind]
      rw [statesWithin_of_isState hv, statesWithin_of_isState hv', h.sortedChildren, List.map_cons,
        List.flatMap_map, List.map_flatMap]
      exact congrArg _ (List.flatMap_congr fun c hc => ih c (mem_sortedChildren.mp hc))
    · have hv' : ¬ (m'.kind (f v)).isState := by rwa [h.kind]
      rw [statesWithin_of_not_isState hv, statesWithin_of_not_isState hv', List.map_nil]

/-- All states are the same. -/
theorem states : m'.states = m.states.map f := by
  rw [states_eq, states_eq, ← h.statesWithin, h.root]

/-- The behaviors of a vertex on a trigger are the same. -/
theorem behaviorsOn (v : Nat) (trigger : String) :
    m'.behaviorsOn (f v) trigger = (m.behaviorsOn v trigger).map (Behavior.rename f) := by
  rw [Machine.behaviorsOn, h.behaviorsOf, List.filter_map]
  rfl

/-- The events of a vertex are the same. -/
theorem eventsOf (v : Nat) : m'.eventsOf (f v) = m.eventsOf v := by
  rw [Machine.eventsOf, h.behaviorsOf, List.flatMap_map]
  rfl

/-- The events of the machine are the same. -/
theorem events : m'.events = m.events := by
  refine Text.sortedSet_eq_of_perm (List.Perm.cons _ ?_)
  have hperm := h.ids.flatMap_right m'.eventsOf
  rwa [List.flatMap_map, List.flatMap_congr fun v _ => h.eventsOf v] at hperm

/-- The next vertex around that reacts to a trigger is the same. -/
theorem nextHandler (v : Nat) (trigger : String) :
    m'.nextHandler (f v) trigger = (m.nextHandler v trigger).map f := by
  rw [Machine.nextHandler, outward_eq_ancestors (h.tree'.holder_eq_parent _), h.ancestors,
    List.find?_map, Machine.nextHandler, outward_eq_ancestors (h.tree.holder_eq_parent _)]
  congr 2
  funext a
  rw [Function.comp_apply, reactsTo, h.behaviorsOf, List.any_map, reactsTo]
  rfl

/-- Every vertex in use has a number in the first machine. -/
theorem exists_eq {v : Nat} (hv : v < m'.size) : ∃ w < m.size, f w = v := by
  have hmem : v ∈ m.ids.map f := h.ids.mem_iff.mp (List.mem_range.mpr hv)
  obtain ⟨w, hw, rfl⟩ := List.mem_map.mp hmem
  exact ⟨w, List.mem_range.mp hw, rfl⟩

/-- Descriptions are unique under other numbers as well. -/
theorem distinct' : m'.Distinct := by
  intro v hv w hw hdesc
  obtain ⟨v, hlt, rfl⟩ := h.exists_eq hv
  obtain ⟨w, hlt', rfl⟩ := h.exists_eq hw
  rw [h.describe, h.describe] at hdesc
  rw [h.distinct v hlt w hlt' hdesc]

end Renaming

/-- Where descriptions are unique, a vertex has one initial pseudo-state at most. -/
theorem initialOf_eq_some_iff {v c : Nat} (hdistinct : m.Distinct) :
    m.initialOf v = some c ↔ m.parent c = some v ∧ (m.kind c).isInitial := by
  have hdescribe {c : Nat} (hparent : m.parent c = some v) (hinitial : (m.kind c).isInitial) :
      m.describe c = m.describe v ++ ".InitialState" := by
    rw [describe_eq]
    cases hkind : m.kind c <;> simp [hkind, Kind.isInitial] at hinitial
    rw [hparent]
    rfl
  constructor
  · exact initialOf_spec
  rintro ⟨hparent, hinitial⟩
  have hsome : (m.initialOf v).isSome :=
    List.find?_isSome.mpr ⟨c, mem_children.mpr hparent, hinitial⟩
  obtain ⟨d, hd⟩ := Option.isSome_iff_exists.mp hsome
  obtain ⟨hparent', hinitial'⟩ := initialOf_spec hd
  rw [hd, hdistinct d (lt_size_of_parent hparent') c (lt_size_of_parent hparent)
    ((hdescribe hparent' hinitial').trans (hdescribe hparent hinitial).symm)]

/-- The behaviors of a machine are those of its vertices, up to order. -/
theorem behaviors_perm (howners : ∀ b ∈ m.behaviors, b.owner < m.size) :
    m.behaviors.Perm (m.ids.flatMap m.behaviorsOf) := by
  -- The behaviors of the first `n` vertices, vertex by vertex.
  have hfirst (n : Nat) : (m.behaviors.filter fun b => b.owner < n).Perm
      ((List.range n).flatMap m.behaviorsOf) := by
    induction n with
    | zero => simp
    | succ n ih =>
      rw [List.range_succ, List.flatMap_append, List.flatMap_singleton]
      have hsplit := List.filter_append_perm (fun b : Behavior => decide (b.owner < n))
        (m.behaviors.filter fun b => b.owner < n + 1)
      rw [List.filter_filter, List.filter_filter] at hsplit
      have hbefore :
          (m.behaviors.filter fun b => decide (b.owner < n) && decide (b.owner < n + 1)) =
          m.behaviors.filter fun b => b.owner < n :=
        List.filter_congr fun b _ => by grind
      have hlast : (m.behaviors.filter fun b => !decide (b.owner < n) && decide (b.owner < n + 1)) =
          m.behaviorsOf n :=
        List.filter_congr fun b _ => by grind
      rw [hbefore, hlast] at hsplit
      exact hsplit.symm.trans (ih.append_right _)
  have hall : m.behaviors.filter (fun b => b.owner < m.size) = m.behaviors :=
    List.filter_eq_self.mpr fun b hb => by simpa using howners b hb
  have hperm := hfirst m.size
  rwa [hall] at hperm

namespace Renaming

variable (h : m.Renaming m' f)
include h

/-- Initial pseudo-states are the same. -/
theorem initialOf (v : Nat) : m'.initialOf (f v) = (m.initialOf v).map f := by
  ext c'
  rw [initialOf_eq_some_iff h.distinct', Option.map_eq_some_iff]
  constructor
  · rintro ⟨hparent, hinitial⟩
    obtain ⟨c, -, rfl⟩ := h.exists_eq (lt_size_of_parent hparent)
    rw [h.parent, Option.map_eq_some_iff] at hparent
    obtain ⟨p, hp, hpv⟩ := hparent
    rw [h.kind] at hinitial
    exact ⟨c, (initialOf_eq_some_iff h.distinct).mpr ⟨h.injective hpv ▸ hp, hinitial⟩, rfl⟩
  · rintro ⟨c, hc, rfl⟩
    obtain ⟨hparent, hinitial⟩ := initialOf_spec hc
    rw [h.parent, hparent, h.kind]
    exact ⟨rfl, hinitial⟩

/-- What a transition goes on with is the same. -/
theorem completion (t : Nat) : m'.completion (f t) = (m.completion t).map f := by
  rw [Machine.completion, Machine.completion, h.kind, h.initialOf]
  split <;> rfl

/-- Membership in lists of vertices does not depend on numbers. -/
theorem contains_map (vs : List Nat) (v : Nat) : (vs.map f).contains (f v) = vs.contains v := by
  rw [Bool.eq_iff_iff, List.contains_iff_mem, List.contains_iff_mem, List.mem_map]
  constructor
  · rintro ⟨w, hw, heq⟩
    exact h.injective heq ▸ hw
  · intro hv
    exact ⟨v, hv, rfl⟩

/-- Lying in a vertex is the same. -/
theorem isWithin (a v : Nat) : m'.isWithin (f a) (f v) = m.isWithin a v := by
  rw [Machine.isWithin, h.ancestorsAndSelf, h.contains_map, Machine.isWithin]

/-- Comparing vertices does not depend on numbers. -/
theorem beq_eq (v w : Nat) : (f v == f w) = (v == w) := by
  rw [Bool.eq_iff_iff, beq_iff_eq, beq_iff_eq, h.eq_iff]

/-- Comparing parents does not depend on numbers. -/
theorem parent_beq (v p : Nat) : (m'.parent (f v) == some (f p)) = (m.parent v == some p) := by
  rw [h.parent]
  cases m.parent v with
  | none => rfl
  | some q => exact h.beq_eq q p

/-- Least common ancestors are the same. -/
theorem leastCommonAncestor (a b : Nat) :
    m'.leastCommonAncestor (f a) (f b) = f (m.leastCommonAncestor a b) := by
  rw [Machine.leastCommonAncestor, h.ancestorsAndSelf, h.ancestorsAndSelf, List.find?_map,
    Machine.leastCommonAncestor]
  have hpred : ((fun v => ((m.ancestorsAndSelf b).map f).contains v) ∘ f) =
      fun v => (m.ancestorsAndSelf b).contains v := funext fun v => h.contains_map _ v
  rw [hpred]
  cases (m.ancestorsAndSelf a).find? fun v => (m.ancestorsAndSelf b).contains v with
  | none => exact h.root.symm
  | some v => rfl

/-- Paths over a common ancestor are the same. -/
theorem pathThrough (s t lca : Nat) :
    m'.pathThrough (f s) (f t) (f lca) = (m.pathThrough s t lca).rename f := by
  have hpred : ((fun v => v != f lca) ∘ f) = fun v => v != lca :=
    funext fun v => congrArg (! ·) (h.beq_eq v lca)
  simp only [Machine.pathThrough, Path.rename, h.ancestorsAndSelf, List.takeWhile_map, hpred,
    List.map_reverse]

/-- Transitions that leave their target are the same. -/
theorem isSelfTransition (s t : Nat) :
    m'.isSelfTransition (f s) (f t) = m.isSelfTransition s t := by
  rw [Machine.isSelfTransition, h.beq_eq, h.kind, h.parent_beq, Machine.isSelfTransition]

/-- Paths of transitions are the same. -/
theorem path (s t : Nat) : m'.path (f s) (f t) = (m.path s t).rename f := by
  rw [Machine.path, Machine.path, h.isSelfTransition, h.holder, h.leastCommonAncestor,
    h.pathThrough]
  split
  · cases m.holder t with
    | none => rfl
    | some p => exact h.pathThrough s t p
  · rfl

/-- Whether a transition leaves anything is the same. -/
theorem exitRequired (s t : Nat) (path : Path) :
    m'.exitRequired (f s) (f t) (path.rename f) = m.exitRequired s t path := by
  simp only [Machine.exitRequired, h.kind, h.parent_beq, Path.rename]

/-- The exit function that is called directly is the same. -/
theorem directExit (s : Nat) (path : Path) :
    m'.directExit (f s) (path.rename f) = (m.directExit s path).map (Prod.map id f) := by
  have hhead : ((path.exits.map f).head? != some (f s)) = (path.exits.head? != some s) := by
    rw [List.head?_map]
    cases path.exits.head? with
    | none => rfl
    | some v => exact congrArg (! ·) (h.beq_eq v s)
  simp only [Machine.directExit, h.tree.contents_eq_children, h.tree'.contents_eq_children,
    h.isEmpty_children, h.kind, Path.rename, hhead, List.length_map, h.parent]
  split
  · split
    · rfl
    · cases m.parent s with
      | none => rfl
      | some p => simp only [Option.map_some, h.kind]; rfl
  · rfl

/-- All behaviors are the same, up to order. -/
theorem behaviors : m'.behaviors.Perm (m.behaviors.map (Behavior.rename f)) := by
  have hperm := (behaviors_perm h.tree'.ownerExists).trans (h.ids.flatMap_right m'.behaviorsOf)
  rw [List.flatMap_map, List.flatMap_congr fun v _ => h.behaviorsOf v, ← List.map_flatMap] at hperm
  exact hperm.trans ((behaviors_perm h.tree.ownerExists).symm.map _)

/-- Pseudo-states are reached from as many places. -/
theorem callSites (p : Nat) : m'.callSites (f p) = m.callSites p := by
  have hstart : (m'.initialOf Machine.root == some (f p)) =
      (m.initialOf Machine.root == some p) := by
    have hinitial := h.initialOf Machine.root
    rw [h.root] at hinitial
    rw [hinitial]
    cases m.initialOf Machine.root with
    | none => rfl
    | some q => exact h.beq_eq q p
  have hsites (b : Behavior) : m'.sitesFrom (f p) (b.rename f) = m.sitesFrom p b := by
    have htarget : ((b.target.map f).bind m'.completion == some (f p)) =
        (b.target.bind m.completion == some p) := by
      cases b.target with
      | none => rfl
      | some t =>
        rw [Option.map_some, Option.bind_some, Option.bind_some, h.completion]
        cases m.completion t with
        | none => rfl
        | some q => exact h.beq_eq q p
    simp only [sitesFrom, renderCount, Behavior.rename, htarget, h.kind]
  rw [Machine.callSites, hstart, Machine.callSites]
  congr 1
  calc m'.behaviors.foldr (fun b count => m'.sitesFrom (f p) b + count) 0
      = (m.behaviors.map (Behavior.rename f)).foldr (fun b count =>
        m'.sitesFrom (f p) b + count) 0 :=
        h.behaviors.foldr_eq' (fun b _ b' _ count =>
          Nat.add_left_comm (m'.sitesFrom (f p) b') _ count) 0
    _ = m.behaviors.foldr (fun b count => m.sitesFrom p b + count) 0 := by
        simp only [List.foldr_map, hsites]

/-- The same pseudo-states have a function of their own. -/
theorem isShared (p : Nat) : m'.plan.isShared (f p) = m.plan.isShared p := by
  by_cases hp : p < m.size
  · rw [isShared_plan hp, isShared_plan ((h.lt_size_iff p).mpr hp), h.callSites]
  · have hp' : ¬ f p < m'.size := fun hlt => hp ((h.lt_size_iff p).mp hlt)
    simp [Plan.isShared, Plan.sitesOf, plan, Machine.ids, hp, hp']

end Renaming

end Machine

end Statechart
