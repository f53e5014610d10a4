import Mathlib.Data.List.Basic
import Statechart.Proofs.Tree

/-!
# Machines that can be put together

A machine is put together from its root by declaring vertices inside existing ones and adding
behaviors of existing ones. Every machine made that way is a tree: the root is the only vertex
without a parent, so every chain of ancestors ends in it and any two vertices have a least common
ancestor on both chains.
-/

namespace Statechart.Machine

variable {m : Machine} {parent v : Nat} {kind : Kind}

/-- Declaring a vertex makes room for one more. -/
theorem size_addVertex (m : Machine) (parent : Nat) (kind : Kind) :
    (m.addVertex parent kind).size = m.size + 1 := by
  simp [addVertex, size]

/-- A new vertex is what it is declared to be. -/
theorem kind_addVertex_size (m : Machine) (parent : Nat) (kind : Kind) :
    (m.addVertex parent kind).kind m.size = kind := by
  simp [addVertex, size, Machine.kind]

/-- Declaring a vertex leaves what the others are. -/
theorem kind_addVertex_of_lt (h : v < m.size) : (m.addVertex parent kind).kind v = m.kind v := by
  have hne : v ≠ m.vertices.size := Nat.ne_of_lt h
  simp [addVertex, Machine.kind, Array.getElem?_push, hne]

/-- A new vertex is put where it is declared to be. -/
theorem holder_addVertex_size (m : Machine) (parent : Nat) (kind : Kind) :
    (m.addVertex parent kind).holder m.size = some parent := by
  simp [addVertex, size, holder]

/-- Declaring a vertex leaves where the others were put. -/
theorem holder_addVertex_of_lt (h : v < m.size) :
    (m.addVertex parent kind).holder v = m.holder v := by
  have hne : v ≠ m.vertices.size := Nat.ne_of_lt h
  simp [addVertex, holder, Array.getElem?_push, hne]

/-- A new vertex lies in the vertex it is declared in. -/
theorem parent_addVertex_size (h : parent < m.size) :
    (m.addVertex parent kind).parent m.size = some parent :=
  parent_of_holder (m.holder_addVertex_size parent kind) h

/-- Declaring a vertex leaves where the others lie. -/
theorem parent_addVertex_of_lt (h : v < m.size) :
    (m.addVertex parent kind).parent v = m.parent v := by
  rw [Machine.parent, holder_addVertex_of_lt h, Machine.parent]

/-- A vertex can be declared in an existing one, and in itself. -/
theorem addVertex?_of_le (h : parent ≤ m.size) :
    m.addVertex? parent kind = some (m.addVertex parent kind) := by
  rw [addVertex?]
  exact if_pos (by rw [size_addVertex]; exact Nat.lt_succ_of_le h)

/-- The machines that can be put together. -/
inductive Assembled : Machine → Prop
  | new (name : String) : Assembled (new name)
  | vertex {m m' : Machine} {parent : Nat} {kind : Kind} (hm : Assembled m)
      (hparent : parent < m.size)
      (hadd : m.addVertex? parent kind = some m') (hkind : ∀ name, kind ≠ .root name) : Assembled m'
  | behavior {m m' : Machine} {owner : Nat} {b : Behavior} (hm : Assembled m)
      (hadd : m.addBehavior? owner b = some m') : Assembled m'

/-- A vertex can be declared inside an existing one. -/
theorem Assembled.addVertex (h : m.Assembled) (hparent : parent < m.size)
    (hkind : ∀ name, kind ≠ .root name) :
    (m.addVertex parent kind).Assembled :=
  h.vertex hparent (addVertex?_of_le (Nat.le_of_lt hparent)) hkind

/-- A behavior can be added to an existing vertex. -/
theorem Assembled.addBehavior {owner : Nat} {b : Behavior} (h : m.Assembled)
    (howner : owner < m.size) :
    (m.addBehavior owner b).Assembled :=
  h.behavior (if_pos howner)

/-- Every transition leads to a vertex of the machine. -/
def TargetsExist (m : Machine) : Prop := ∀ b ∈ m.behaviors, ∀ t ∈ b.target, t < m.size

instance (m : Machine) : Decidable m.TargetsExist :=
  inferInstanceAs (Decidable (∀ b ∈ m.behaviors, ∀ t ∈ b.target, t < m.size))

/-- A tree: only the first vertex is a root, every other vertex has a parent, and behaviors
belong to vertices. -/
structure IsTree (m : Machine) : Prop where
  rootKind : ∃ name, m.kind root = .root name
  rootOutermost : m.holder root = none
  rootOnly : ∀ v name, m.kind v = .root name → v = root
  hasParent : ∀ v, v ≠ root → v < m.size → ∃ p, m.parent v = some p
  ownerExists : ∀ b ∈ m.behaviors, b.owner < m.size

/-- A vertex that is not read as a final state is in use. -/
theorem lt_size_of_kind_ne (h : m.kind v ≠ .final) : v < m.size := by
  by_contra hout
  have hnone : m.vertices[v]? = none := Array.getElem?_eq_none (Nat.le_of_not_lt hout)
  exact h (by simp [Machine.kind, hnone])

/-- A pseudo-state is a vertex of the machine. -/
theorem lt_size_of_isPseudo (h : (m.kind v).isPseudo) : v < m.size :=
  lt_size_of_kind_ne fun hfinal => by simp [hfinal, Kind.isPseudo, Kind.isState] at h

/-- A machine with nothing but its root is a tree. -/
theorem isTree_new (name : String) : (new name).IsTree where
  rootKind := ⟨name, rfl⟩
  rootOutermost := rfl
  rootOnly v other h := by
    have : v < (new name).size := lt_size_of_kind_ne (by simp [h])
    exact Nat.lt_one_iff.mp this
  hasParent v hne hlt := absurd (Nat.lt_one_iff.mp hlt) hne
  ownerExists b hb := by simp [new] at hb

/-- Declaring a vertex inside an existing one keeps a tree. -/
theorem IsTree.addVertex (h : m.IsTree) (hparent : parent < m.size)
    (hkind : ∀ name, kind ≠ .root name) :
    (m.addVertex parent kind).IsTree where
  rootKind := by
    obtain ⟨name, hname⟩ := h.rootKind
    have hroot : root < m.size := Nat.zero_lt_of_lt hparent
    exact ⟨name, by rw [kind_addVertex_of_lt hroot, hname]⟩
  rootOutermost := by
    have hroot : root < m.size := Nat.zero_lt_of_lt hparent
    rw [holder_addVertex_of_lt hroot, h.rootOutermost]
  rootOnly v name hv := by
    have hlt : v < m.size + 1 := by
      rw [← size_addVertex m parent kind]
      exact lt_size_of_kind_ne (by simp [hv])
    rcases Nat.lt_succ_iff_lt_or_eq.mp hlt with hold | rfl
    · rw [kind_addVertex_of_lt hold] at hv
      exact h.rootOnly v name hv
    · rw [kind_addVertex_size] at hv
      exact absurd hv (hkind name)
  hasParent v hne hlt := by
    rw [size_addVertex] at hlt
    rcases Nat.lt_succ_iff_lt_or_eq.mp hlt with hold | rfl
    · rw [parent_addVertex_of_lt hold]
      exact h.hasParent v hne hold
    · exact ⟨parent, parent_addVertex_size hparent⟩
  ownerExists b hb := by
    rw [size_addVertex]
    exact Nat.lt_succ_of_lt (h.ownerExists b hb)

/-- Adding a behavior of an existing vertex keeps a tree. -/
theorem IsTree.addBehavior {owner : Nat} (h : m.IsTree) (howner : owner < m.size) (b : Behavior) :
    (m.addBehavior owner b).IsTree where
  rootKind := h.rootKind
  rootOutermost := h.rootOutermost
  rootOnly := h.rootOnly
  hasParent := h.hasParent
  ownerExists other hother := by
    rcases List.mem_append.mp hother with hold | hnew
    · exact h.ownerExists other hold
    · rw [List.mem_singleton.mp hnew]
      exact howner

/-- Every machine that can be put together is a tree. -/
theorem Assembled.isTree (h : m.Assembled) : m.IsTree := by
  induction h with
  | new name => exact isTree_new name
  | vertex hm hparent hadd hkind ih =>
    rw [addVertex?_of_le (Nat.le_of_lt hparent)] at hadd
    exact Option.some.inj hadd ▸ ih.addVertex hparent hkind
  | behavior hm hadd ih =>
    rw [addBehavior?] at hadd
    split at hadd
    · next howner => exact Option.some.inj hadd ▸ ih.addBehavior howner _
    · cases hadd

namespace IsTree

/-- In a tree a vertex was put in its parent, if anywhere. -/
theorem holder_eq_parent (h : m.IsTree) (v : Nat) : m.holder v = m.parent v := by
  by_cases hroot : v = root
  · rw [hroot, h.rootOutermost, parent_root]
  · cases hv : m.holder v with
    | none => rw [Machine.parent, hv, Option.filter_none]
    | some q =>
      obtain ⟨p, hp⟩ := h.hasParent v hroot (lt_size_of_holder hv)
      rw [hp, ← hv, holder_of_parent hp]

/-- In a tree the contents of a vertex are its children. -/
theorem contents_eq_children (h : m.IsTree) (v : Nat) : m.contents v = m.children v := by
  rw [contents, funext fun c => congrArg (· == some v) (h.holder_eq_parent c), children]

/-- In a tree every path is found. -/
theorem hasPath (h : m.IsTree) (source target : Nat) : m.hasPath source target := by
  have hanchored (v : Nat) : m.isAnchored v := by
    rw [isAnchored, List.all_eq_true]
    intro a _
    rw [bne_iff_ne, h.holder_eq_parent]
    exact fun hself => Nat.lt_irrefl a (parent_lt hself)
  rw [Machine.hasPath, hanchored, hanchored, Bool.and_self, Bool.or_true]

/-- The first vertex is in use. -/
theorem root_lt_size (h : m.IsTree) : root < m.size := by
  obtain ⟨name, hname⟩ := h.rootKind
  exact lt_size_of_kind_ne (by simp [hname])

/-- Every chain of ancestors ends in the root. -/
theorem root_mem_ancestorsAndSelf (h : m.IsTree) (hv : v < m.size) :
    root ∈ m.ancestorsAndSelf v := by
  induction v using climb (m := m) with
  | step v ih =>
    by_cases hroot : v = root
    · exact hroot ▸ self_mem_ancestorsAndSelf m root
    · obtain ⟨p, hp⟩ := h.hasParent v hroot hv
      rw [ancestorsAndSelf_of_parent hp]
      exact List.mem_cons_of_mem _ (ih p hp (Nat.lt_trans (parent_lt hp) hv))

end IsTree

/-- A lamp that is pushed on and off and turned to be dim or bright; both pushing and turning lead
through one choice. -/
def lamp : Machine :=
  (new "Lamp").addVertex root .initial
    |>.addVertex root (.state "Off")
    |>.addVertex root (.state "On")
    |>.addVertex 3 .initial
    |>.addVertex 3 (.state "Dim")
    |>.addVertex 3 (.state "Bright")
    |>.addVertex root (.point .choice "level")
    |>.addBehavior 1 { target := some 2 }
    |>.addBehavior 2 { triggers := ["push"], target := some 7 }
    |>.addBehavior 3 { triggers := ["push"], target := some 2 }
    |>.addBehavior 4 { target := some 5 }
    |>.addBehavior 5 { triggers := ["turn"], target := some 7 }
    |>.addBehavior 7 { guard := some "warm", target := some 6 }
    |>.addBehavior 7 { target := some 3 }

/-- The lamp can be put together. -/
theorem lamp_assembled : lamp.Assembled :=
  (Assembled.new "Lamp").addVertex (by decide) (by simp)
    |>.addVertex (by decide) (by simp)
    |>.addVertex (by decide) (by simp)
    |>.addVertex (by decide) (by simp)
    |>.addVertex (by decide) (by simp)
    |>.addVertex (by decide) (by simp)
    |>.addVertex (by decide) (by simp)
    |>.addBehavior (by decide)
    |>.addBehavior (by decide)
    |>.addBehavior (by decide)
    |>.addBehavior (by decide)
    |>.addBehavior (by decide)
    |>.addBehavior (by decide)
    |>.addBehavior (by decide)

end Statechart.Machine
