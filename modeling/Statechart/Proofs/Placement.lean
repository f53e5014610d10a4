import Statechart.Proofs.Rows

/-!
# Where vertices are placed

Declaring a vertex with everything inside it takes up a stretch of numbers: the vertex first, then
what is inside it, stretch after stretch. So every vertex of a document has its place in the machine
in the order of the document, with its kind and its behaviors, and with the places of the vertices
right inside it as its children. Declaring further vertices changes nothing there, but adds to the
children of the vertex that they are inside of.
-/

namespace Statechart

namespace VertexDoc

mutual

/-- The number of vertices that a vertex stands for, itself counted. -/
def size : VertexDoc → Nat
  | state _ _ vertices => sizeAll vertices + 1
  | _ => 1

/-- The number of vertices that vertices stand for. -/
def sizeAll : List VertexDoc → Nat
  | [] => 0
  | vertex :: rest => vertex.size + sizeAll rest

end

/-- The places of vertices one after the other, from the given one on. -/
def places (v : Nat) : List VertexDoc → List Nat
  | [] => []
  | vertex :: rest => v :: places (v + vertex.size) rest

end VertexDoc

open VertexDoc (sizeAll places)

/-- Nothing lies in a vertex that is not declared yet. -/
theorem Machine.children_size (m : Machine) : m.children m.size = [] := by
  rw [children, List.filter_eq_nil_iff]
  intro v hv hparent
  have hlt : m.size < v := parent_lt (beq_iff_eq.mp hparent)
  exact absurd (List.mem_range.mp hv) (by omega)

/-- A new vertex is the last child of the vertex that it is declared in. -/
theorem Machine.children_addVertex {m : Machine} {parent : Nat} (h : parent < m.size) (kind : Kind)
    (v : Nat) :
    (m.addVertex parent kind).children v = m.children v ++ if v = parent then [m.size] else [] := by
  have hold : m.ids.filter (fun c => (m.addVertex parent kind).parent c == some v) =
      m.children v := by
    refine List.filter_congr fun c hc => ?_
    rw [parent_addVertex_of_lt (List.mem_range.mp hc)]
  rw [children, ids, size_addVertex, List.range_succ, List.filter_append]
  change m.ids.filter _ ++ _ = _
  rw [hold, List.filter_singleton, parent_addVertex_size h]
  by_cases hv : v = parent
  · simp [hv]
  · have hne : (parent == v) = false := beq_false_of_ne (Ne.symm hv)
    simp [hv, hne]

/-- What a machine in the making has at a place. -/
structure Node where
  kind : Kind
  behaviors : List BehaviorDoc
  children : List Nat

/-- A node with further children. -/
def Node.extend (node : Node) (added : List Nat) : Node :=
  { node with children := node.children ++ added }

namespace Skeleton

variable {sk sk' sk'' : Skeleton} {parent v : Nat} {kind : Kind} {behaviors : List BehaviorDoc}

/-- What is at the place `v`. -/
def node (sk : Skeleton) (v : Nat) : Node := ⟨sk.machine.kind v, sk.docs v, sk.machine.children v⟩

/-- Between two machines in the making, vertices were declared inside one vertex: those right inside
it and everything inside them. -/
structure Grows (parent : Nat) (added : List Nat) (count : Nat) (sk sk' : Skeleton) : Prop where
  size : sk'.machine.size = sk.machine.size + count
  others : ∀ v < sk.machine.size, v ≠ parent → sk'.node v = sk.node v
  parent : sk'.node parent = (sk.node parent).extend added

/-- Nothing was declared yet. -/
theorem Grows.refl (parent : Nat) (sk : Skeleton) : Grows parent [] 0 sk sk where
  size := rfl
  others _ _ _ := rfl
  parent := by rw [Node.extend, List.append_nil]

/-- Vertices were declared inside a vertex, and then further ones inside the same vertex. -/
theorem Grows.trans {added added' : List Nat} {count count' : Nat}
    (h : Grows parent added count sk sk') (h' : Grows parent added' count' sk' sk'') :
    Grows parent (added ++ added') (count + count') sk sk'' where
  size := by rw [h'.size, h.size, Nat.add_assoc]
  others v hv hne := by
    have hv' : v < sk'.machine.size := Nat.lt_of_lt_of_le hv (h.size ▸ Nat.le_add_right ..)
    exact (h'.others v hv' hne).trans (h.others v hv hne)
  parent := by
    rw [h'.parent, h.parent, Node.extend, Node.extend, Node.extend, List.append_assoc]

/-- Vertices were declared inside a vertex, and then further ones inside one of those. -/
theorem Grows.inside {added added' : List Nat} {count count' child : Nat}
    (h : Grows parent added count sk sk') (h' : Grows child added' count' sk' sk'')
    (hparent : parent < sk.machine.size) (hchild : sk.machine.size ≤ child) :
    Grows parent added (count + count') sk sk'' where
  size := by rw [h'.size, h.size, Nat.add_assoc]
  others v hv hne := by
    have hv' : v < sk'.machine.size := Nat.lt_of_lt_of_le hv (h.size ▸ Nat.le_add_right ..)
    exact (h'.others v hv' (by omega)).trans (h.others v hv hne)
  parent := by
    have hparent' : parent < sk'.machine.size :=
      Nat.lt_of_lt_of_le hparent (h.size ▸ Nat.le_add_right ..)
    exact (h'.others parent hparent' (by omega)).trans h.parent

/-- A declared vertex is at its place, and the last child of the vertex that it is declared in. -/
theorem grows_declare (htidy : sk.Tidy) (hparent : parent < sk.machine.size) (kind : Kind)
    (behaviors : List BehaviorDoc) :
    Grows parent [sk.machine.size] 1 sk (sk.declare parent kind behaviors) ∧
      (sk.declare parent kind behaviors).node sk.machine.size = ⟨kind, behaviors, []⟩ := by
  have hkind {v : Nat} (hv : v < sk.machine.size) :
      (sk.declare parent kind behaviors).machine.kind v = sk.machine.kind v :=
        Machine.kind_addVertex_of_lt hv
  have hchildren (v : Nat) : (sk.declare parent kind behaviors).machine.children v =
      sk.machine.children v ++ if v = parent then [sk.machine.size] else [] :=
    Machine.children_addVertex hparent kind v
  refine ⟨⟨Machine.size_addVertex .., fun v hv hne => ?_, ?_⟩, ?_⟩
  · rw [node, hkind hv, docs_declare_of_lt hv, hchildren, if_neg hne, List.append_nil, node]
  · rw [node, hkind hparent, docs_declare_of_lt hparent, hchildren, if_pos rfl, node, Node.extend]
  · have hnew : (sk.declare parent kind behaviors).machine.kind sk.machine.size = kind :=
      Machine.kind_addVertex_size ..
    rw [node, hnew, docs_declare_size htidy, hchildren, if_neg (Nat.ne_of_gt hparent),
      Machine.children_size, List.append_nil]

mutual

/-- The vertex stands at the place `v`, with everything inside it behind it. -/
def Placed (sk : Skeleton) (v : Nat) : VertexDoc → Prop
  | .state name behaviors vertices =>
    sk.node v = ⟨.state name, behaviors, places (v + 1) vertices⟩ ∧ PlacedAll sk (v + 1) vertices
  | .initial behaviors => sk.node v = ⟨.initial, behaviors, []⟩
  | .point kind label behaviors => sk.node v = ⟨.point kind label, behaviors, []⟩
  | .final => sk.node v = ⟨.final, [], []⟩

/-- The vertices stand one after the other from the place `v` on. -/
def PlacedAll (sk : Skeleton) (v : Nat) : List VertexDoc → Prop
  | [] => True
  | vertex :: rest => Placed sk v vertex ∧ PlacedAll sk (v + vertex.size) rest

end

mutual

/-- A vertex stays at its place if nothing changes there. -/
theorem Placed.congr (v : Nat) : (vertex : VertexDoc) →
    (∀ w, v ≤ w → w < v + vertex.size → sk'.node w = sk.node w) → Placed sk v vertex →
    Placed sk' v vertex
  | .state name behaviors vertices, h, hplaced => by
    simp only [VertexDoc.size] at h
    refine ⟨(h v (Nat.le_refl v) (by omega)).trans hplaced.1, ?_⟩
    exact PlacedAll.congr (v + 1) vertices (fun w hle hlt => h w (by omega) (by omega)) hplaced.2
  | .initial behaviors, h, hplaced => (h v (Nat.le_refl v) (Nat.lt_succ_self v)).trans hplaced
  | .point kind label behaviors, h, hplaced =>
    (h v (Nat.le_refl v) (Nat.lt_succ_self v)).trans hplaced
  | .final, h, hplaced => (h v (Nat.le_refl v) (Nat.lt_succ_self v)).trans hplaced

/-- Vertices one after the other stay at their places if nothing changes there. -/
theorem PlacedAll.congr (v : Nat) : (vertices : List VertexDoc) →
    (∀ w, v ≤ w → w < v + sizeAll vertices → sk'.node w = sk.node w) → PlacedAll sk v vertices →
    PlacedAll sk' v vertices
  | [], _, _ => trivial
  | vertex :: rest, h, hplaced => by
    simp only [sizeAll] at h
    refine ⟨Placed.congr v vertex (fun w hle hlt => h w hle (by omega)) hplaced.1, ?_⟩
    exact PlacedAll.congr (v + vertex.size) rest (fun w hle hlt => h w (by omega) (by omega))
      hplaced.2

end

mutual

/-- Declaring a vertex with everything inside it places them behind what is there. -/
theorem placed_add (parent : Nat) (sk : Skeleton) (htidy : sk.Tidy)
    (hparent : parent < sk.machine.size) :
    (vertex : VertexDoc) →
    Grows parent [sk.machine.size] vertex.size sk (add parent sk vertex) ∧
      Placed (add parent sk vertex) sk.machine.size vertex
  | .initial behaviors => grows_declare htidy hparent .initial behaviors
  | .point kind label behaviors => grows_declare htidy hparent (.point kind label) behaviors
  | .final => grows_declare htidy hparent .final []
  | .state name behaviors vertices => by
    obtain ⟨hfirst, hnode⟩ := grows_declare htidy hparent (.state name) behaviors
    have hsize := hfirst.size
    obtain ⟨hinside, hplaced⟩ :=
      placed_addAll sk.machine.size (sk.declare parent (.state name) behaviors)
      (htidy.declare parent (.state name) behaviors) (by omega) vertices
    have hall := hfirst.inside hinside hparent (Nat.le_refl _)
    rw [Nat.add_comm 1] at hall
    rw [hsize] at hinside hplaced
    refine ⟨hall, ?_, hplaced⟩
    rw [add, hinside.parent, hnode]
    rfl

/-- Declaring vertices one after the other places them one after the other. -/
theorem placed_addAll (parent : Nat) (sk : Skeleton) (htidy : sk.Tidy)
    (hparent : parent < sk.machine.size) :
    (vertices : List VertexDoc) →
    Grows parent (places sk.machine.size vertices) (sizeAll vertices) sk
      (addAll parent sk vertices) ∧
      PlacedAll (addAll parent sk vertices) sk.machine.size vertices
  | [] => ⟨.refl parent sk, trivial⟩
  | vertex :: rest => by
    obtain ⟨hfirst, hplaced⟩ := placed_add parent sk htidy hparent vertex
    have hsize := hfirst.size
    obtain ⟨hrest, hplacedRest⟩ := placed_addAll parent (add parent sk vertex)
      (rows_add parent sk htidy hparent vertex).2 (by omega) rest
    -- The first vertex stays where it is, as only the children of the vertex around it change.
    have hstays : ∀ w, sk.machine.size ≤ w → w < sk.machine.size + vertex.size →
        (addAll parent sk (vertex :: rest)).node w = (add parent sk vertex).node w :=
      fun w hle hlt => hrest.others w (by omega) (by omega)
    rw [hsize] at hrest hplacedRest
    exact ⟨hfirst.trans hrest, hplaced.congr _ vertex hstays, hplacedRest⟩

end

end Skeleton

/-- The vertices of a model are at their places behind the root. -/
theorem ModelDoc.placed_skeleton (model : ModelDoc) :
    model.skeleton.machine.size = sizeAll model.vertices + 1 ∧
      model.skeleton.node Machine.root =
        ⟨.root model.name, model.behaviors, places 1 model.vertices⟩ ∧
      Skeleton.PlacedAll model.skeleton 1 model.vertices := by
  obtain ⟨hgrows, hplaced⟩ :=
    Skeleton.placed_addAll Machine.root _ model.tidy_start Nat.zero_lt_one model.vertices
  have hstart :
      Skeleton.node ⟨Machine.new model.name, model.behaviors.map fun b => (Machine.root, b)⟩
      Machine.root = ⟨.root model.name, model.behaviors, []⟩ := by
    rw [Skeleton.node, docs_start]
    rfl
  refine ⟨hgrows.size.trans (Nat.add_comm ..), ?_, hplaced⟩
  rw [skeleton, hgrows.parent, hstart]
  rfl

end Statechart
