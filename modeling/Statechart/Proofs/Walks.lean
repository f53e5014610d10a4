import Mathlib.Data.List.Chain
import Statechart.Proofs.Growth

/-!
# Transitions walk along the tree

In a tree there is one walk between two vertices that passes no vertex twice: up to the least common
ancestor and down again, since a walk that has gone down once can only go up by turning back. The
path of a transition is that walk, and the way back is the same walk reversed. A transition that
leaves its target in order to enter it again goes up to the parent of the target instead, and
nowhere if the target is the root.
-/

namespace Statechart

/-- The path in the other direction. -/
def Path.reverse (path : Path) : Path := ⟨path.lca, path.enters.reverse, path.exits.reverse⟩

namespace Machine

variable {m : Machine} {a b l p s t v w : Nat} {up down walk : List Nat}

/-- Every vertex of the list lies right in the one behind it. -/
def Ascends (m : Machine) (vs : List Nat) : Prop := vs.IsChain fun v w => m.parent v = some w

/-- Every vertex of the list but the first lies right in the one before it. -/
def Descends (m : Machine) (vs : List Nat) : Prop := vs.IsChain fun v w => m.parent w = some v

/-- A walk from one vertex to another along parents and children that passes no vertex twice. -/
structure Walk (m : Machine) (s t : Nat) (walk : List Nat) : Prop where
  starts : walk.head? = some s
  ends : walk.getLast? = some t
  adjacent : walk.IsChain fun v w => m.parent v = some w ∨ m.parent w = some v
  nodup : walk.Nodup

/-- A vertex that two vertices are or lie in, and that is or lies in every other such vertex. -/
structure IsLeastCommon (m : Machine) (s t l : Nat) : Prop where
  source : m.isWithin l s
  target : m.isWithin l t
  least : ∀ a, m.isWithin a s → m.isWithin a t → m.isWithin a l

/-- Two vertices that lie in each other are one. -/
theorem eq_of_mem_of_mem (hab : a ∈ m.ancestorsAndSelf b) (hba : b ∈ m.ancestorsAndSelf a) :
    a = b :=
  Nat.le_antisymm (le_of_mem_ancestorsAndSelf hab) (le_of_mem_ancestorsAndSelf hba)

/-- The least common ancestor is one vertex. -/
theorem IsLeastCommon.unique (ha : m.IsLeastCommon s t a) (hb : m.IsLeastCommon s t b) : a = b :=
  eq_of_mem_of_mem (isWithin_iff.mp (hb.least a ha.source ha.target))
    (isWithin_iff.mp (ha.least b hb.source hb.target))

/-- The least common ancestor does not depend on the order of the two vertices. -/
theorem IsLeastCommon.symm (h : m.IsLeastCommon s t l) : m.IsLeastCommon t s l :=
  ⟨h.target, h.source, fun a hat has => h.least a has hat⟩

/-- What is below a vertex on the way up from `v` are the other vertices on the way that lie in
it. -/
theorem mem_below (ha : a ∈ m.ancestorsAndSelf v) :
    w ∈ m.below a v ↔ w ∈ m.ancestorsAndSelf v ∧ a ∈ m.ancestorsAndSelf w ∧ w ≠ a := by
  induction v using climb (m := m) with
  | step v ih =>
    by_cases hva : v = a
    · subst hva
      rw [below_self]
      constructor
      · intro hw
        cases hw
      · rintro ⟨hw, hvw, hne⟩
        exact absurd (eq_of_mem_of_mem hw hvw) hne
    · obtain ⟨p, hp, hap⟩ := exists_parent_of_mem ha hva
      rw [below_of_parent hp hva, ancestorsAndSelf_of_parent hp, List.mem_cons, List.mem_cons,
        ih p hp hap]
      constructor
      · rintro (rfl | ⟨hw, haw, hne⟩)
        · exact ⟨.inl rfl, ha, hva⟩
        · exact ⟨.inr hw, haw, hne⟩
      · rintro ⟨rfl | hw, haw, hne⟩
        · exact .inl rfl
        · exact .inr ⟨hw, haw, hne⟩

/-- The way up from a vertex passes no vertex twice. -/
theorem nodup_below (ha : a ∈ m.ancestorsAndSelf v) : (m.below a v).Nodup := by
  induction v using climb (m := m) with
  | step v ih =>
    by_cases hva : v = a
    · rw [hva, below_self]
      exact List.nodup_nil
    · obtain ⟨p, hp, hap⟩ := exists_parent_of_mem ha hva
      rw [below_of_parent hp hva, List.nodup_cons]
      refine ⟨?_, ih p hp hap⟩
      intro hv
      have hle := le_of_mem_ancestorsAndSelf ((mem_below hap).mp hv).1
      have hlt := parent_lt hp
      omega

/-- The way up from a vertex starts with it. -/
theorem head?_below (ha : a ∈ m.ancestorsAndSelf v) : (m.below a v ++ [a]).head? = some v := by
  by_cases hva : v = a
  · rw [hva, below_self]
    rfl
  · obtain ⟨p, hp, -⟩ := exists_parent_of_mem ha hva
    rw [below_of_parent hp hva]
    rfl

/-- The way up from a vertex goes from child to parent. -/
theorem ascends_below (ha : a ∈ m.ancestorsAndSelf v) : m.Ascends (m.below a v ++ [a]) := by
  induction v using climb (m := m) with
  | step v ih =>
    by_cases hva : v = a
    · rw [hva, below_self]
      exact List.isChain_singleton a
    · obtain ⟨p, hp, hap⟩ := exists_parent_of_mem ha hva
      rw [below_of_parent hp hva]
      apply List.IsChain.cons (ih p hp hap)
      intro w hw
      rw [head?_below hap] at hw
      rw [hp, Option.mem_some_iff.mp hw]

/-- A list that goes from child to parent up to `a` is the way up from where it starts. -/
theorem eq_below_of_ascends (h : m.Ascends (up ++ [a])) (hv : (up ++ [a]).head? = some v) :
    a ∈ m.ancestorsAndSelf v ∧ up = m.below a v := by
  induction up generalizing v with
  | nil =>
    obtain rfl : a = v := Option.some.inj hv
    exact ⟨self_mem_ancestorsAndSelf m a, (below_self m a).symm⟩
  | cons w rest ih =>
    obtain rfl : w = v := Option.some.inj hv
    rw [Ascends, List.cons_append, List.isChain_cons] at h
    have hne : rest ++ [a] ≠ [] := by simp
    obtain ⟨p, hp⟩ := Option.ne_none_iff_exists'.mp (mt List.head?_eq_none_iff.mp hne)
    have hparent := h.1 p hp
    obtain ⟨hap, hrest⟩ := ih h.2 hp
    have hwa : w ≠ a := by
      have hle := le_of_mem_ancestorsAndSelf hap
      have hlt := parent_lt hparent
      omega
    rw [below_of_parent hparent hwa, ← hrest, ancestorsAndSelf_of_parent hparent]
    exact ⟨List.mem_cons_of_mem _ hap, rfl⟩

/-- Going down is going up backwards. -/
theorem descends_iff : m.Descends walk ↔ m.Ascends walk.reverse := List.isChain_reverse.symm

/-- A walk goes up to some vertex and then down: after a step down, going up would lead back. -/
theorem exists_peak (hne : walk ≠ [])
    (hadjacent : walk.IsChain fun v w => m.parent v = some w ∨ m.parent w = some v)
    (hnodup : walk.Nodup) :
    ∃ up top down, walk = up ++ top :: down ∧ m.Ascends (up ++ [top]) ∧
      m.Descends (top :: down) := by
  induction walk with
  | nil => exact absurd rfl hne
  | cons v rest ih =>
    cases rest with
    | nil => exact ⟨[], v, [], rfl, List.isChain_singleton v, List.isChain_singleton v⟩
    | cons w rest =>
      rw [List.isChain_cons_cons] at hadjacent
      obtain ⟨up, top, down, hwalk, hup, hdown⟩ :=
        ih (List.cons_ne_nil w rest) hadjacent.2 hnodup.of_cons
      rw [hwalk]
      cases hadjacent.1 with
      | inl hparent =>
        refine ⟨v :: up, top, down, rfl, ?_, hdown⟩
        apply List.IsChain.cons hup
        intro x hx
        have hhead : (up ++ [top]).head? = (w :: rest).head? := by
          rw [hwalk]
          cases up <;> rfl
        rw [hhead] at hx
        exact hparent.trans (congrArg some (Option.mem_some_iff.mp hx))
      | inr hchild =>
        cases up with
        | nil =>
          obtain rfl : w = top := (List.cons.inj hwalk).1
          exact ⟨[], v, w :: down, rfl, List.isChain_singleton v,
            List.isChain_cons_cons.mpr ⟨hchild, hdown⟩⟩
        | cons x up =>
          -- the step up from `w` leads to its parent `v`, which the walk has passed
          exfalso
          obtain rfl : w = x := (List.cons.inj hwalk).1
          have hne : up ++ [top] ≠ [] := by simp
          obtain ⟨y, hy⟩ := Option.ne_none_iff_exists'.mp (mt List.head?_eq_none_iff.mp hne)
          rw [Ascends, List.cons_append, List.isChain_cons] at hup
          obtain rfl : v = y := Option.some.inj (hchild.symm.trans (hup.1 y hy))
          have hmem : v ∈ up ++ [top] := List.mem_of_mem_head? hy
          rw [hwalk] at hnodup
          apply (List.nodup_cons.mp hnodup).1
          rw [List.cons_append, List.append_cons]
          exact List.mem_cons_of_mem _ (List.mem_append_left _ hmem)

/-- A walk is the way up to the least common ancestor and down again. -/
theorem Walk.eq_below (hl : m.IsLeastCommon s t l) (hwalk : m.Walk s t walk) :
    walk = m.below l s ++ l :: (m.below l t).reverse := by
  have hne : walk ≠ [] := by
    rintro rfl
    cases hwalk.starts
  obtain ⟨up, top, down, rfl, hup, hdown⟩ := exists_peak hne hwalk.adjacent hwalk.nodup
  have hstart : (up ++ [top]).head? = some s := by
    rw [← hwalk.starts]
    cases up <;> rfl
  obtain ⟨hsource, rfl⟩ := eq_below_of_ascends hup hstart
  have hend : (down.reverse ++ [top]).head? = some t := by
    rw [← hwalk.ends, ← List.reverse_cons, List.head?_reverse, List.getLast?_append_of_ne_nil]
    exact List.cons_ne_nil top down
  rw [descends_iff, List.reverse_cons] at hdown
  obtain ⟨htarget, hbelow⟩ := eq_below_of_ascends hdown hend
  have htop : top ∈ m.ancestorsAndSelf l :=
    isWithin_iff.mp (hl.least top (isWithin_iff.mpr hsource) (isWithin_iff.mpr htarget))
  -- were the least common ancestor below the vertex where the walk turns, it would be passed twice
  by_cases hlt : l = top
  · subst hlt
    rw [← hbelow, List.reverse_reverse]
  · have hlup : l ∈ m.below top s := (mem_below hsource).mpr ⟨isWithin_iff.mp hl.source, htop, hlt⟩
    have hldown : l ∈ m.below top t :=
      (mem_below htarget).mpr ⟨isWithin_iff.mp hl.target, htop, hlt⟩
    rw [← hbelow, List.mem_reverse] at hldown
    have hdisjoint := List.disjoint_of_nodup_append hwalk.nodup
    exact absurd (List.mem_cons_of_mem top hldown) (hdisjoint hlup)

/-- The way up to the least common ancestor and down again is a walk. -/
theorem walk_below (hl : m.IsLeastCommon s t l) :
    m.Walk s t (m.below l s ++ l :: (m.below l t).reverse) := by
  have hsource := isWithin_iff.mp hl.source
  have htarget := isWithin_iff.mp hl.target
  have hdown : m.Descends (l :: (m.below l t).reverse) := by
    rw [descends_iff, List.reverse_cons, List.reverse_reverse]
    exact ascends_below htarget
  constructor
  · rw [List.append_cons, List.head?_append_of_ne_nil _ (by simp)]
    exact head?_below hsource
  · rw [List.getLast?_append_of_ne_nil _ (List.cons_ne_nil _ _), ← List.head?_reverse,
      List.reverse_cons, List.reverse_reverse]
    exact head?_below htarget
  · rw [List.append_cons]
    apply List.IsChain.append_overlap
    · exact (ascends_below hsource).imp fun _ _ h => .inl h
    · exact hdown.imp fun _ _ h => .inr h
    · exact List.cons_ne_nil _ _
  · rw [List.nodup_append, List.nodup_cons, List.nodup_reverse, List.mem_reverse]
    refine ⟨nodup_below hsource, ⟨?_, nodup_below htarget⟩, ?_⟩
    · intro hmem
      exact ((mem_below htarget).mp hmem).2.2 rfl
    · intro v hv w hw
      obtain ⟨hvs, hlv, hne⟩ := (mem_below hsource).mp hv
      rintro rfl
      rcases List.mem_cons.mp hw with hvl | hvt
      · exact hne hvl
      · rw [List.mem_reverse] at hvt
        have hvt := ((mem_below htarget).mp hvt).1
        have hvl := isWithin_iff.mp (hl.least v (isWithin_iff.mpr hvs) (isWithin_iff.mpr hvt))
        exact hne (eq_of_mem_of_mem hvl hlv)

namespace Rooted

/-- In a tree every vertex lies in the root. -/
theorem root_mem (h : m.Rooted) (hv : v < m.size) : root ∈ m.ancestorsAndSelf v :=
  List.mem_of_getLast? (h.outwards v hv).2

/-- In a tree any two vertices have a least common ancestor. -/
theorem isLeastCommon (h : m.Rooted) (hs : s < m.size) (ht : t < m.size) :
    m.IsLeastCommon s t (m.leastCommonAncestor s t) := by
  obtain ⟨hsource, htarget, hleast⟩ := leastCommonAncestor_spec (h.root_mem hs) (h.root_mem ht)
  refine ⟨isWithin_iff.mpr hsource, isWithin_iff.mpr htarget, ?_⟩
  intro a has hat
  exact isWithin_iff.mpr (hleast a (isWithin_iff.mp has) (isWithin_iff.mp hat))

end Rooted

/-- A transition that does not enter its target again takes the way up to the least common
ancestor and down. -/
theorem path_of_not_self (hself : m.isSelfTransition s t = false) :
    m.path s t = ⟨m.leastCommonAncestor s t, m.below (m.leastCommonAncestor s t) s,
      (m.below (m.leastCommonAncestor s t) t).reverse⟩ := by
  rw [path, if_neg (by simp [hself]), pathThrough_eq]

/-- A transition that enters its target again goes up to the parent of the target. -/
theorem path_of_self (hself : m.isSelfTransition s t) (hp : m.parent t = some p) :
    m.path s t = ⟨p, m.below p s, [t]⟩ := by
  have hne : t ≠ p := Nat.ne_of_gt (parent_lt hp)
  rw [path, if_pos hself, holder_of_parent hp]
  change m.pathThrough s t p = _
  rw [pathThrough_eq, below_of_parent hp hne, below_self]
  rfl

/-- In a tree the least common ancestor is the innermost of all common ones. The path of a
transition is the only walk from source to target, up to an ancestor and then down, and the path
back is its reverse. If the target is entered again, the path goes up to the target's parent, and
for the root it is empty. -/
theorem paths_are_walks (h : m.Rooted) (hs : s < m.size) (ht : t < m.size) :
    m.IsLeastCommon s t (m.leastCommonAncestor s t) ∧
      (m.isSelfTransition s t = false →
        (∀ walk, m.Walk s t walk ↔
          walk = (m.path s t).exits ++ [(m.path s t).lca] ++ (m.path s t).enters) ∧
          m.Ascends ((m.path s t).exits ++ [(m.path s t).lca]) ∧
          m.Descends ((m.path s t).lca :: (m.path s t).enters) ∧
          (m.isSelfTransition t s = false → m.path t s = (m.path s t).reverse)) ∧
      (m.isSelfTransition s t → ∀ p, m.parent t = some p →
        (m.path s t).lca = p ∧ (m.path s t).enters = [t] ∧ (s = t → (m.path s t).exits = [t]) ∧
          ((m.kind s).isExitPoint → m.parent s = some t → (m.path s t).exits = [s, t])) ∧
      (m.isSelfTransition s t → t = root → m.path s t = ⟨root, [], []⟩) := by
  have hl := h.isLeastCommon hs ht
  refine ⟨hl, ?_, ?_, ?_⟩
  · intro hself
    rw [path_of_not_self hself, List.append_assoc, List.singleton_append]
    refine ⟨?_, ascends_below (isWithin_iff.mp hl.source), ?_, ?_⟩
    · intro walk
      constructor
      · exact fun hwalk => hwalk.eq_below hl
      · rintro rfl
        exact walk_below hl
    · rw [descends_iff, List.reverse_cons, List.reverse_reverse]
      exact ascends_below (isWithin_iff.mp hl.target)
    · intro hback
      rw [path_of_not_self hback, (h.isLeastCommon ht hs).symm.unique hl, Path.reverse,
        List.reverse_reverse]
  · intro hself p hp
    have hne : t ≠ p := Nat.ne_of_gt (parent_lt hp)
    have hbelow : m.below p t = [t] := by rw [below_of_parent hp hne, below_self]
    rw [path_of_self hself hp]
    refine ⟨rfl, rfl, ?_, ?_⟩
    · rintro rfl
      exact hbelow
    · intro _ hst
      have hsp : s ≠ p := by
        have hlt := parent_lt hst
        have hlt' := parent_lt hp
        omega
      rw [below_of_parent hst hsp, hbelow]
  · rintro hself rfl
    rw [path, if_pos hself, (h.rootOnly root h.rootExists).mpr rfl]

/-- Every tree that can be put together goes outwards to its root. -/
theorem IsTree.rooted (h : m.IsTree) : m.Rooted := by
  have hearlier : ∀ v p, m.holder v = some p → p < v := by
    intro v p hp
    rw [h.holder_eq_parent] at hp
    exact parent_lt hp
  have hfiled : m.Filed := by
    apply Filed.of_holders h.root_lt_size
    · intro v hv
      constructor
      · intro hnone
        by_contra hne
        obtain ⟨p, hp⟩ := h.hasParent v hne hv
        rw [holder_of_parent hp] at hnone
        cases hnone
      · rintro rfl
        exact h.rootOutermost
    · exact fun v p hp => Nat.le_of_lt (hearlier v p hp)
  rw [hfiled.rooted_iff]
  rintro ⟨v, hv⟩
  exact Nat.lt_irrefl v (hearlier v v hv)

/-- Turned off while it is dim, the lamp goes up to its root, and this is the only walk there is. -/
theorem lamp_dim_off :
    lamp.Rooted ∧ lamp.isSelfTransition 5 2 = false ∧ ∀ walk, lamp.Walk 5 2 walk ↔
      walk = [5, 3, 0, 2] := by
  have hrooted := lamp_assembled.isTree.rooted
  have hself : lamp.isSelfTransition 5 2 = false := by decide +kernel
  have hpath : lamp.path 5 2 = ⟨0, [5, 3], [2]⟩ := by decide +kernel
  obtain ⟨-, hwalks, -, -⟩ := paths_are_walks hrooted (s := 5) (t := 2) (by decide) (by decide)
  obtain ⟨hwalk, -⟩ := hwalks hself
  rw [hpath] at hwalk
  exact ⟨hrooted, hself, hwalk⟩

end Machine

end Statechart
