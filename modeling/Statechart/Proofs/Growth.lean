import Mathlib.Data.List.Nodup
import Statechart.Proofs.Assembly

/-!
# Machines grown call by call

A machine grows from its root by calls that declare a vertex or add a behavior, with any numbers for
the vertices they name. A call that names a vertex which does not exist fails. What was put in a
vertex is read off the vertices; it is the same list that one gets by filing every new vertex at the
end of one list.

One call slips through: a vertex may be put in itself, since it exists by the time its holder is
looked up. Then going outwards from it never ends. A machine that grew without such a call is a
tree, and in any machine that grew the vertices that lie in the root are one.
-/

namespace Statechart

/-- A call that adds to a machine. -/
inductive Addition where
  | vertex (parent : Nat) (kind : Kind)
  | behavior (owner : Nat) (b : Behavior)
deriving DecidableEq, Repr

namespace Addition

/-- Whether a call puts a vertex in itself, when there are `size` vertices before the first call. -/
def putsInItself (size : Nat) : List Addition → Bool
  | [] => false
  | vertex parent _ :: rest => parent == size || putsInItself (size + 1) rest
  | behavior .. :: rest => putsInItself size rest

/-- The lists of what was put in each vertex, kept up to date call by call: a new vertex gets an
empty list of its own and is filed at the end of one list. -/
def file (lists : List (List Nat)) : List Addition → List (List Nat)
  | [] => lists
  | vertex parent _ :: rest => file ((lists ++ [[]]).modify parent (· ++ [lists.length])) rest
  | behavior .. :: rest => file lists rest

end Addition

namespace Machine

variable {m m' : Machine} {additions : List Addition} {v p q : Nat}

/-- Make one addition. -/
def grow (m : Machine) : Addition → Option Machine
  | .vertex parent kind => m.addVertex? parent kind
  | .behavior owner b => m.addBehavior? owner b

/-- Make additions one after the other. -/
def growAll (m : Machine) (additions : List Addition) : Option Machine := additions.foldlM grow m

/-- The vertices from `v` outwards, each put in the next one. There is no such list if going
outwards never ends. -/
inductive Climbs (m : Machine) : Nat → List Nat → Prop
  | top {v : Nat} (h : m.holder v = none) : Climbs m v [v]
  | up {v p : Nat} {chain : List Nat} (h : m.holder v = some p) (hrest : Climbs m p chain) :
      Climbs m v (v :: chain)

/-- Every vertex but the root was put in one vertex, none in a later one, and the contents of a
vertex are in the order of declaration. -/
structure Filed (m : Machine) : Prop where
  rootExists : root < m.size
  rootOnly : ∀ v < m.size, m.holder v = none ↔ v = root
  notLater : ∀ v p, m.holder v = some p → p ≤ v
  once : ∀ v p, m.holder v = some p → (m.contents p).count v = 1
  nowhereElse : ∀ v p, v ∈ m.contents p → m.holder v = some p
  increasing : ∀ v, (m.contents v).Pairwise (· < ·)

/-- Vertices were put in earlier ones, so that going outwards ends in the root. -/
structure Rooted (m : Machine) : Prop extends m.Filed where
  earlier : ∀ v p, m.holder v = some p → p < v
  outwards : ∀ v < m.size, m.Climbs v (m.ancestorsAndSelf v) ∧
    (m.ancestorsAndSelf v).getLast? = some root

/-- What one addition does. -/
theorem grow_cases {a : Addition} (h : m.grow a = some m') :
    (∃ parent kind, a = .vertex parent kind ∧ parent ≤ m.size ∧ m' = m.addVertex parent kind) ∨
      ∃ owner b, a = .behavior owner b ∧ owner < m.size ∧ m' = m.addBehavior owner b := by
  cases a with
  | vertex parent kind =>
    rw [grow, addVertex?] at h
    split at h
    · next hlt =>
      rw [size_addVertex] at hlt
      exact .inl ⟨parent, kind, rfl, Nat.le_of_lt_succ hlt, (Option.some.inj h).symm⟩
    · cases h
  | behavior owner b =>
    rw [grow, addBehavior?] at h
    split at h
    · next hlt => exact .inr ⟨owner, b, rfl, hlt, (Option.some.inj h).symm⟩
    · cases h

/-- Additions are made one after the other. -/
theorem growAll_cons {a : Addition} (h : m.growAll (a :: additions) = some m') :
    ∃ next, m.grow a = some next ∧ next.growAll additions = some m' := by
  rw [growAll, List.foldlM_cons] at h
  exact Option.bind_eq_some_iff.mp h

/-- A new vertex is at the end of the contents of the vertex that it was put in. -/
theorem contents_addVertex (m : Machine) (parent : Nat) (kind : Kind) (v : Nat) :
    (m.addVertex parent kind).contents v = m.contents v ++ if parent = v then [m.size] else [] := by
  have hold : ∀ c ∈ List.range m.size, ((m.addVertex parent kind).holder c == some v) =
      (m.holder c == some v) :=
    fun c hc => by rw [holder_addVertex_of_lt (List.mem_range.mp hc)]
  rw [contents, ids, size_addVertex, List.range_succ, List.filter_append, List.filter_congr hold,
    List.filter_singleton, holder_addVertex_size, contents, ids]
  simp

/-- What is so of where vertices were put stays so when another one is put where it is so. -/
theorem forall_holder_addVertex {P : Nat → Nat → Prop} {parent : Nat} {kind : Kind}
    (h : ∀ v p, m.holder v = some p → P v p) (hnew : P m.size parent) :
    ∀ v p, (m.addVertex parent kind).holder v = some p → P v p := by
  intro v p hp
  have hlt : v < m.size + 1 := size_addVertex m parent kind ▸ lt_size_of_holder hp
  by_cases hold : v < m.size
  · rw [holder_addVertex_of_lt hold] at hp
    exact h v p hp
  · obtain rfl : v = m.size := by omega
    rw [holder_addVertex_size] at hp
    exact Option.some.inj hp ▸ hnew

/-- The contents of vertices are in order whatever the machine, since they are read off its
vertices in order. -/
theorem Filed.of_holders (hroot : root < m.size) (htop : ∀ v < m.size, m.holder v = none ↔ v = root)
    (hlater : ∀ v p, m.holder v = some p → p ≤ v) : m.Filed where
  rootExists := hroot
  rootOnly := htop
  notLater := hlater
  once _ _ hp := List.count_eq_one_of_mem (List.nodup_range.filter _) (mem_contents.mpr hp)
  nowhereElse _ _ hmem := mem_contents.mp hmem
  increasing _ := List.pairwise_lt_range.filter _

/-- In a machine with nothing but its root nothing was put anywhere. -/
theorem holder_new (name : String) (v : Nat) : (new name).holder v = none := by
  cases v with
  | zero => rfl
  | succ v => simp [holder, new]

/-- In a machine with nothing but its root everything is in order. -/
theorem filed_new (name : String) : (new name).Filed := by
  apply Filed.of_holders
  · exact Nat.zero_lt_one
  · intro v hv
    rw [holder_new, Nat.lt_one_iff.mp hv]
    exact iff_of_true rfl rfl
  · intro v p hp
    rw [holder_new] at hp
    cases hp

/-- One addition keeps vertices and their contents in order. -/
theorem Filed.grow {a : Addition} (h : m.Filed) (hgrow : m.grow a = some m') : m'.Filed := by
  rcases grow_cases hgrow with ⟨parent, kind, -, hparent, rfl⟩ | ⟨owner, b, -, -, rfl⟩
  · have hroot := h.rootExists
    apply Filed.of_holders
    · rw [size_addVertex]
      exact Nat.lt_succ_of_lt hroot
    · intro v hv
      rw [size_addVertex] at hv
      by_cases hold : v < m.size
      · rw [holder_addVertex_of_lt hold]
        exact h.rootOnly v hold
      · obtain rfl : v = m.size := by omega
        rw [holder_addVertex_size]
        exact iff_of_false (Option.some_ne_none _) (Nat.ne_of_gt hroot)
    · exact forall_holder_addVertex h.notLater hparent
  · exact .of_holders h.rootExists h.rootOnly h.notLater

/-- Any additions keep vertices and their contents in order. -/
theorem Filed.growAll (h : m.Filed) (hgrow : m.growAll additions = some m') : m'.Filed := by
  induction additions generalizing m with
  | nil => exact Option.some.inj hgrow ▸ h
  | cons a rest ih =>
    obtain ⟨next, hnext, hrest⟩ := growAll_cons hgrow
    exact ih (h.grow hnext) hrest

/-- Nothing was put in a vertex that is not declared yet. -/
theorem Filed.contents_size (h : m.Filed) : m.contents m.size = [] := by
  rw [List.eq_nil_iff_forall_not_mem]
  intro c hc
  have hholder := mem_contents.mp hc
  have hle := h.notLater c _ hholder
  have hlt := lt_size_of_holder hholder
  omega

/-- The contents of all vertices after one more is declared: it has none and is
filed in one list. -/
theorem Filed.map_contents_addVertex (h : m.Filed) {parent : Nat} (kind : Kind) :
    (m.addVertex parent kind).ids.map (m.addVertex parent kind).contents =
      (m.ids.map m.contents ++ [[]]).modify parent (· ++ [(m.ids.map m.contents).length]) := by
  have hlists : m.ids.map m.contents ++ [[]] = (List.range (m.size + 1)).map m.contents := by
    rw [List.range_succ, List.map_append, List.map_singleton, h.contents_size, ids]
  have hlength : (m.ids.map m.contents).length = m.size := by simp [ids]
  rw [hlists, hlength, ids, size_addVertex]
  apply List.ext_getElem?
  intro v
  rw [List.getElem?_modify, List.getElem?_map, List.getElem?_map]
  cases hv : (List.range (m.size + 1))[v]? with
  | none => rfl
  | some w =>
    obtain rfl : v = w := by simpa using (List.getElem?_eq_some_iff.mp hv).2
    rw [Option.map_some, Option.map_some, contents_addVertex]
    by_cases hparent : parent = v <;> simp [hparent]

/-- The contents of all vertices are the lists that are kept up to date call by call. -/
theorem Filed.file_growAll (h : m.Filed) (hgrow : m.growAll additions = some m') :
    Addition.file (m.ids.map m.contents) additions = m'.ids.map m'.contents := by
  induction additions generalizing m with
  | nil => exact Option.some.inj hgrow ▸ rfl
  | cons a rest ih =>
    obtain ⟨next, hnext, hrest⟩ := growAll_cons hgrow
    have hfiled := ih (h.grow hnext) hrest
    rcases grow_cases hnext with ⟨parent, kind, rfl, -, rfl⟩ | ⟨owner, b, rfl, -, rfl⟩
    · rw [Addition.file, ← h.map_contents_addVertex kind]
      exact hfiled
    · exact hfiled

/-- A vertex holds itself exactly if one did before or the new one was put in itself. -/
theorem exists_holder_self_addVertex (m : Machine) (parent : Nat) (kind : Kind) :
    (∃ v, (m.addVertex parent kind).holder v = some v) ↔
      (∃ v, m.holder v = some v) ∨ parent = m.size := by
  constructor
  · intro h
    obtain ⟨v, hv⟩ := h
    exact forall_holder_addVertex (P := fun v p => v = p → (∃ v, m.holder v = some v) ∨
      parent = m.size)
      (fun v p hp heq => .inl ⟨v, hp.trans (congrArg some heq.symm)⟩) (fun heq => .inr heq.symm)
        v v hv rfl
  · intro h
    cases h with
    | inl h =>
      obtain ⟨v, hv⟩ := h
      exact ⟨v, by rw [holder_addVertex_of_lt (lt_size_of_holder hv), hv]⟩
    | inr h => exact ⟨m.size, by rw [holder_addVertex_size, h]⟩

/-- After additions some vertex holds itself exactly if one did before or a call
puts one in itself. -/
theorem exists_holder_self_growAll (hgrow : m.growAll additions = some m') :
    (∃ v, m'.holder v = some v) ↔ (∃ v, m.holder v = some v) ∨
      Addition.putsInItself m.size additions := by
  induction additions generalizing m with
  | nil => simp [Addition.putsInItself, Option.some.inj hgrow]
  | cons a rest ih =>
    obtain ⟨next, hnext, hrest⟩ := growAll_cons hgrow
    rw [ih hrest]
    rcases grow_cases hnext with ⟨parent, kind, rfl, hparent, rfl⟩ | ⟨owner, b, rfl, -, rfl⟩
    · rw [exists_holder_self_addVertex, size_addVertex, Addition.putsInItself, Bool.or_eq_true,
        beq_iff_eq, or_assoc]
    · rfl

/-- A machine that grew: it is in order, its first vertex is a root, and behaviors
belong to vertices. -/
structure Grown (m : Machine) : Prop extends m.Filed where
  rootKind : ∃ name, m.kind root = .root name
  ownerExists : ∀ b ∈ m.behaviors, b.owner < m.size

/-- A machine with nothing but its root has grown. -/
theorem grown_new (name : String) : (new name).Grown :=
  { filed_new name with
    rootKind := ⟨name, rfl⟩
    ownerExists := fun b hb => by simp [new] at hb }

/-- A machine that grew has grown after one more addition. -/
theorem Grown.grow {a : Addition} (h : m.Grown) (hgrow : m.grow a = some m') : m'.Grown := by
  have hfiled := h.toFiled.grow hgrow
  rcases grow_cases hgrow with ⟨parent, kind, -, -, rfl⟩ | ⟨owner, b, -, howner, rfl⟩
  · refine { hfiled with rootKind := ?_, ownerExists := fun b hb => ?_ }
    · rw [kind_addVertex_of_lt h.rootExists]
      exact h.rootKind
    · rw [size_addVertex]
      exact Nat.lt_succ_of_lt (h.ownerExists b hb)
  · refine { hfiled with rootKind := h.rootKind, ownerExists := fun other hother => ?_ }
    rcases List.mem_append.mp hother with hold | hnew
    · exact h.ownerExists other hold
    · rw [List.mem_singleton.mp hnew]
      exact howner

/-- A machine that grew has grown after any additions. -/
theorem Grown.growAll (h : m.Grown) (hgrow : m.growAll additions = some m') : m'.Grown := by
  induction additions generalizing m with
  | nil => exact Option.some.inj hgrow ▸ h
  | cons a rest ih =>
    obtain ⟨next, hnext, hrest⟩ := growAll_cons hgrow
    exact ih (h.grow hnext) hrest

/-- A tree is a machine that grew. -/
theorem IsTree.grown (h : m.IsTree) : m.Grown := by
  refine { Filed.of_holders h.root_lt_size (fun v hv => ?_) fun v p hp => ?_ with
    rootKind := h.rootKind
    ownerExists := h.ownerExists }
  · constructor
    · intro hnone
      by_contra hne
      obtain ⟨p, hp⟩ := h.hasParent v hne hv
      cases hnone.symm.trans (holder_of_parent hp)
    · rintro rfl
      exact h.rootOutermost
  · rw [h.holder_eq_parent] at hp
    exact Nat.le_of_lt (parent_lt hp)

/-- A machine that can be put together grows from its root. -/
theorem Assembled.exists_growAll (h : m.Assembled) :
    ∃ name additions, (Machine.new name).growAll additions = some m := by
  induction h with
  | new name => exact ⟨name, [], rfl⟩
  | @vertex m m' parent kind hm hparent hadd hkind ih =>
    obtain ⟨name, additions, hgrow⟩ := ih
    refine ⟨name, additions ++ [.vertex parent kind], ?_⟩
    rw [growAll, List.foldlM_append, ← growAll, hgrow]
    simpa [Machine.grow] using hadd
  | @behavior m m' owner b hm hadd ih =>
    obtain ⟨name, additions, hgrow⟩ := ih
    refine ⟨name, additions ++ [.behavior owner b], ?_⟩
    rw [growAll, List.foldlM_append, ← growAll, hgrow]
    simpa [Machine.grow] using hadd

/-- Going outwards from a vertex that holds itself never ends. -/
theorem not_climbs_of_holder_self (h : m.holder v = some v) (chain : List Nat) :
    ¬ m.Climbs v chain := by
  intro hclimbs
  induction chain with
  | nil => cases hclimbs
  | cons w rest ih =>
    cases hclimbs with
    | top htop => simp [h] at htop
    | up hup hrest =>
      rw [h] at hup
      exact ih (Option.some.inj hup ▸ hrest)

namespace Filed

/-- If going outwards from a vertex ends, it ends in the root. -/
theorem root_mem_of_climbs {chain : List Nat} (h : m.Filed) (hv : v < m.size)
    (hclimbs : m.Climbs v chain) :
    root ∈ m.ancestorsAndSelf v := by
  induction hclimbs with
  | @top v htop =>
    rw [(h.rootOnly v hv).mp htop]
    exact self_mem_ancestorsAndSelf m root
  | @up v p chain hp hrest ih =>
    have hne : p ≠ v := by
      rintro rfl
      exact not_climbs_of_holder_self hp chain hrest
    have hlt : p < v := Nat.lt_of_le_of_ne (h.notLater v p hp) hne
    rw [ancestorsAndSelf_of_parent (parent_of_holder hp hlt)]
    exact List.mem_cons_of_mem _ (ih (Nat.lt_trans hlt hv))

/-- Going outwards from a vertex ends exactly if no vertex on the way holds itself. -/
theorem isAnchored_iff (h : m.Filed) : m.isAnchored v ↔ ∃ chain, m.Climbs v chain := by
  induction v using climb (m := m) with
  | step v ih =>
    cases hv : m.holder v with
    | none =>
      have htop : m.parent v = none := by rw [parent, hv, Option.filter_none]
      refine iff_of_true ?_ ⟨_, .top hv⟩
      simp [isAnchored, ancestorsAndSelf_of_top htop, hv]
    | some p =>
      by_cases hself : p = v
      · rw [hself] at hv
        refine iff_of_false ?_ (not_exists.mpr (not_climbs_of_holder_self hv))
        rw [isAnchored, ancestorsAndSelf]
        simp [hv]
      · have hparent := parent_of_holder hv (Nat.lt_of_le_of_ne (h.notLater v p hv) hself)
        have hup : m.isAnchored v ↔ m.isAnchored p := by
          rw [isAnchored, ancestorsAndSelf_of_parent hparent, List.all_cons, hv, isAnchored]
          simp [hself]
        rw [hup, ih p hparent]
        constructor
        · rintro ⟨chain, hclimbs⟩
          exact ⟨_, .up hv hclimbs⟩
        · rintro ⟨chain, hclimbs⟩
          cases hclimbs with
          | top htop => simp [hv] at htop
          | up hup hrest => exact ⟨_, Option.some.inj (hv.symm.trans hup) ▸ hrest⟩

/-- What lies in the root is a vertex of the machine. -/
theorem lt_size_of_root_mem (h : m.Filed) (hv : root ∈ m.ancestorsAndSelf v) : v < m.size := by
  by_cases hroot : v = root
  · exact hroot ▸ h.rootExists
  · obtain ⟨p, hp, -⟩ := exists_parent_of_mem hv hroot
    exact lt_size_of_parent hp

/-- A vertex that lies in the root was put in its parent, if anywhere. -/
theorem holder_eq_parent (h : m.Filed) (hv : root ∈ m.ancestorsAndSelf v) :
    m.holder v = m.parent v := by
  by_cases hroot : v = root
  · rw [hroot, (h.rootOnly root h.rootExists).mpr rfl, parent_root]
  · obtain ⟨p, hp, -⟩ := exists_parent_of_mem hv hroot
    rw [hp, holder_of_parent hp]

/-- The contents of a vertex that lies in the root are its children. -/
theorem contents_eq_children (h : m.Filed) (hv : root ∈ m.ancestorsAndSelf v) :
    m.contents v = m.children v := by
  refine List.filter_congr fun c _ => ?_
  rw [Bool.eq_iff_iff, beq_iff_eq, beq_iff_eq]
  refine ⟨fun hc => parent_of_holder hc (Nat.lt_of_le_of_ne (h.notLater c v hc) ?_),
    holder_of_parent⟩
  rintro rfl
  rw [h.holder_eq_parent hv] at hc
  exact Nat.lt_irrefl v (parent_lt hc)

/-- A transition that starts in the root and has a path ends in the root. -/
theorem root_mem_of_hasPath (h : m.Filed) (hs : root ∈ m.ancestorsAndSelf p) (hv : v < m.size)
    (hpath : m.hasPath p v) : root ∈ m.ancestorsAndSelf v := by
  rw [hasPath, Bool.or_eq_true, Bool.and_eq_true] at hpath
  rcases hpath with hself | ⟨-, hanchored⟩
  · simp only [isSelfTransition, Bool.or_eq_true, beq_iff_eq, Bool.and_eq_true] at hself
    rcases hself with rfl | ⟨-, hparent⟩
    · exact hs
    · exact (root_mem_iff_of_parent hparent).mp hs
  · obtain ⟨chain, hclimbs⟩ := h.isAnchored_iff.mp hanchored
    exact h.root_mem_of_climbs hv hclimbs

end Filed

namespace Grown

/-- The machine itself counts as a state. -/
theorem root_isState (h : m.Grown) : (m.kind root).isState := by
  obtain ⟨name, hname⟩ := h.rootKind
  rw [hname, Kind.isState]

end Grown

/-- Where vertices were put in earlier ones, going outwards ends in the root. -/
theorem Filed.climbs_ancestorsAndSelf (h : m.Filed) (hearlier : ∀ v p, m.holder v = some p → p < v)
    (hv : v < m.size) :
    m.Climbs v (m.ancestorsAndSelf v) ∧ (m.ancestorsAndSelf v).getLast? = some root := by
  induction v using climb (m := m) with
  | step v ih =>
    cases hp : m.holder v with
    | none =>
      have htop : m.parent v = none := by rw [parent, hp, Option.filter_none]
      rw [ancestorsAndSelf_of_top htop, (h.rootOnly v hv).mp hp]
      exact ⟨.top ((h.rootOnly root h.rootExists).mpr rfl), rfl⟩
    | some p =>
      have hlt := hearlier v p hp
      have hparent := parent_of_holder hp hlt
      obtain ⟨hclimbs, hlast⟩ := ih p hparent (Nat.lt_trans hlt hv)
      rw [ancestorsAndSelf_of_parent hparent, List.getLast?_cons, hlast]
      exact ⟨.up hp hclimbs, rfl⟩

/-- A machine in order is a tree exactly if no vertex holds itself. -/
theorem Filed.rooted_iff (h : m.Filed) : m.Rooted ↔ ¬ ∃ v, m.holder v = some v := by
  constructor
  · intro hrooted hself
    obtain ⟨v, hv⟩ := hself
    exact absurd (hrooted.earlier v v hv) (Nat.lt_irrefl v)
  · intro hnone
    have hearlier : ∀ v p, m.holder v = some p → p < v := by
      intro v p hp
      have hne : p ≠ v := fun heq => hnone ⟨v, heq ▸ hp⟩
      exact Nat.lt_of_le_of_ne (h.notLater v p hp) hne
    exact { h with
      earlier := hearlier
      outwards := fun v hv => h.climbs_ancestorsAndSelf hearlier hv }

/-- However a machine grew, its vertices are in order, and their contents are the lists that were
kept call by call. It is a tree exactly if no call put a vertex in itself. -/
theorem grown_rooted_iff {name : String} (hgrow : (new name).growAll additions = some m) :
    m.Filed ∧ m.ids.map m.contents = Addition.file [[]] additions ∧
      (m.Rooted ↔ Addition.putsInItself 1 additions = false) := by
  have hfiled := (filed_new name).growAll hgrow
  have hnone : ¬ ∃ v, (new name).holder v = some v := by simp [holder_new]
  refine ⟨hfiled, ((filed_new name).file_growAll hgrow).symm, ?_⟩
  rw [hfiled.rooted_iff, exists_holder_self_growAll hgrow, or_iff_right hnone, Bool.not_eq_true]
  rfl

/-- Calls that put the light of a lantern in its state of being on. -/
def lanternCalls : List Addition :=
  [.vertex root .initial, .vertex root (.state "On"), .behavior 1 { target := some 2 },
    .vertex 2 (.state "Bright")]

/-- The lantern is a tree with the lists of contents that its calls give. -/
theorem lantern_rooted :
    ∃ m, (new "Lantern").growAll lanternCalls = some m ∧ m.Rooted ∧
      m.ids.map m.contents = [[1, 2], [], [3], []] := by
  have hgrow : ∃ m, (new "Lantern").growAll lanternCalls = some m := ⟨_, rfl⟩
  obtain ⟨m, hm⟩ := hgrow
  obtain ⟨-, hlists, hrooted⟩ := grown_rooted_iff hm
  exact ⟨m, hm, hrooted.mpr rfl, hlists⟩

/-- A state can be put in itself: no call fails, yet the machine is not a tree, and going outwards
from the state never ends. -/
theorem knot_not_rooted :
    ∃ m, (new "Knot").growAll [.vertex 1 (.state "A")] = some m ∧ ¬ m.Rooted ∧
      ∀ chain, ¬ m.Climbs 1 chain := by
  have hself : ((new "Knot").addVertex 1 (.state "A")).holder 1 = some 1 := rfl
  refine ⟨(new "Knot").addVertex 1 (.state "A"), rfl, ?_, not_climbs_of_holder_self hself⟩
  intro hrooted
  exact absurd (hrooted.earlier 1 1 hself) (Nat.lt_irrefl 1)

/-- A porch whose bell was put in itself. The bell is to ring when it is pushed. -/
def porch : Machine :=
  (new "Porch").addVertex root .initial
    |>.addVertex root (.state "Idle")
    |>.addVertex 3 (.state "Bell")
    |>.addBehavior 1 { target := some 2 }
    |>.addBehavior 3 { triggers := ["push"], action := some "ring();" }

/-- The porch grows from its root. -/
theorem porch_grown : ∃ additions, (new "Porch").growAll additions = some porch :=
  ⟨[.vertex root .initial, .vertex root (.state "Idle"), .vertex 3 (.state "Bell"),
    .behavior 1 { target := some 2 },
    .behavior 3 { triggers := ["push"], action := some "ring();" }], rfl⟩

end Machine

end Statechart
