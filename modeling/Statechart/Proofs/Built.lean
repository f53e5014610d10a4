import Mathlib.Data.List.Nodup
import Statechart.Proofs.Rows

/-!
# Machines from documents

Every machine that a model document gives can be put together vertex by vertex and behavior by
behavior, so it is a tree, and its transitions lead to vertices that it has. Its vertices can be
told by their descriptions, and its final states do nothing.
-/

namespace Statechart

namespace Behavior

/-- Adding triggers leaves the target. -/
theorem addTriggers_target (triggers : List String) (b : Behavior) :
    (triggers.foldl addTrigger b).target = b.target := by
  induction triggers generalizing b with
  | nil => rfl
  | cons trigger rest ih =>
    rw [List.foldl_cons, ih, addTrigger]
    split <;> rfl

end Behavior

namespace Machine

/-- Behaviors of existing vertices can be added one after the other. -/
theorem Assembled.addBehaviors {m : Machine} (h : m.Assembled) (bs : List Behavior)
    (howners : ∀ b ∈ bs, b.owner < m.size) :
    Assembled { m with behaviors := m.behaviors ++ bs } := by
  induction bs generalizing m with
  | nil => simpa using h
  | cons b rest ih =>
    rw [List.forall_mem_cons] at howners
    have hadd := ih (h.addBehavior (b := b) howners.1) howners.2
    rwa [Machine.addBehavior, List.append_assoc, List.singleton_append] at hadd

/-- Descriptions do not depend on behaviors. -/
theorem describe_behaviors (m : Machine) (behaviors : List Behavior) (v : Nat) :
    { m with behaviors := behaviors }.describe v = m.describe v := by
  have hkind : ∀ v, True → { m with behaviors := behaviors }.kind (id v) = m.kind v :=
    fun _ _ => rfl
  refine describe_of_agree hkind (fun v _ => ?_) (fun _ _ _ _ => trivial) trivial
  rw [Option.map_id]
  rfl

end Machine

namespace Skeleton

/-- Declaring a vertex keeps the vertices before and a machine that can be put together. -/
theorem assembled_declare {sk : Skeleton} {parent : Nat} {kind : Kind}
    {behaviors : List BehaviorDoc} (hm : sk.machine.Assembled) (hparent : parent < sk.machine.size)
    (hkind : ∀ name, kind ≠ .root name) :
    (sk.declare parent kind behaviors).machine.Assembled ∧
      sk.machine.size ≤ (sk.declare parent kind behaviors).machine.size := by
  refine ⟨hm.addVertex hparent hkind, ?_⟩
  rw [declare, Machine.size_addVertex]
  exact Nat.le_succ _

mutual

/-- Declaring a vertex with everything inside it keeps the vertices before and a machine that
can be put together. -/
theorem assembled_add (parent : Nat) (sk : Skeleton) (hm : sk.machine.Assembled)
    (hparent : parent < sk.machine.size) : (vertex : VertexDoc) →
    (add parent sk vertex).machine.Assembled ∧ sk.machine.size ≤ (add parent sk vertex).machine.size
  | .initial behaviors => assembled_declare hm hparent (by simp)
  | .point kind label behaviors => assembled_declare hm hparent (by simp)
  | .final => assembled_declare hm hparent (by simp)
  | .state name behaviors vertices => by
    obtain ⟨hstate, hsize⟩ : (sk.declare parent (.state name) behaviors).machine.Assembled ∧
        sk.machine.size ≤ (sk.declare parent (.state name) behaviors).machine.size :=
      assembled_declare hm hparent (by simp)
    have hroom : sk.machine.size < (sk.declare parent (.state name) behaviors).machine.size := by
      rw [declare, Machine.size_addVertex]
      exact Nat.lt_succ_self _
    obtain ⟨hinside, hmore⟩ := assembled_addAll sk.machine.size _ hstate hroom vertices
    exact ⟨hinside, Nat.le_trans hsize hmore⟩

/-- Declaring vertices one after the other does so as well. -/
theorem assembled_addAll (parent : Nat) (sk : Skeleton) (hm : sk.machine.Assembled)
    (hparent : parent < sk.machine.size) : (vertices : List VertexDoc) →
    (addAll parent sk vertices).machine.Assembled ∧
    sk.machine.size ≤ (addAll parent sk vertices).machine.size
  | [] => ⟨hm, Nat.le_refl _⟩
  | vertex :: rest => by
    obtain ⟨hfirst, hsize⟩ := assembled_add parent sk hm hparent vertex
    obtain ⟨hrest, hmore⟩ :=
      assembled_addAll parent _ hfirst (Nat.lt_of_lt_of_le hparent hsize) rest
    exact ⟨hrest, Nat.le_trans hsize hmore⟩

end

variable {sk : Skeleton}

/-- Vertices are the same if their descriptions are, where no description stands in two rows. -/
theorem distinct_of_nodup (h : (sk.rows.map Row.description).Nodup) : sk.machine.Distinct := by
  intro v hv w hw hdesc
  rw [map_description_rows] at h
  exact List.inj_on_of_nodup_map h (List.mem_range.mpr hv) (List.mem_range.mpr hw) hdesc

/-- The behaviors of a vertex are those in its row. -/
theorem behaviorsOf_finish (sk : Skeleton) (v : Nat) :
    sk.finish.behaviorsOf v = (sk.docs v).map fun b =>
      built (sk.rows.map Row.description) (v, b) := by
  rw [Machine.behaviorsOf, finish, List.filter_map, docs, List.map_map]
  refine List.map_congr_left fun x hx => ?_
  rw [← beq_iff_eq.mp (List.mem_filter.mp hx).2]
  rfl

end Skeleton

namespace VertexDoc

mutual

/-- The rows of final states have no behaviors. -/
theorem behaviors_of_mem_rows {parent : String} {row : Row} (hkind : row.kind = .final) :
    (vertex : VertexDoc) →
    row ∈ vertex.rows parent → row.behaviors = []
  | .initial behaviors => fun h => by
    rw [rows, List.mem_singleton] at h
    rw [h] at hkind
    cases hkind
  | .point kind label behaviors => fun h => by
    rw [rows, List.mem_singleton] at h
    rw [h] at hkind
    cases hkind
  | .final => fun h => by
    rw [rows, List.mem_singleton] at h
    rw [h]
  | .state name behaviors vertices => fun h => by
    rw [rows, List.mem_cons] at h
    cases h with
    | inl heq =>
      rw [heq] at hkind
      cases hkind
    | inr hinside => exact behaviors_of_mem_rowsAll hkind vertices hinside

/-- The rows of final states among vertices one after the other have no behaviors. -/
theorem behaviors_of_mem_rowsAll {parent : String} {row : Row} (hkind : row.kind = .final) :
    (vertices : List VertexDoc) → row ∈ rowsAll parent vertices → row.behaviors = []
  | [] => fun h => by
    rw [rowsAll] at h
    exact absurd h List.not_mem_nil
  | vertex :: rest => fun h => by
    rw [rowsAll, List.mem_append] at h
    cases h with
    | inl hfirst => exact behaviors_of_mem_rows hkind vertex hfirst
    | inr hrest => exact behaviors_of_mem_rowsAll hkind rest hrest

end

end VertexDoc

namespace ModelDoc

variable {model : ModelDoc} {m : Machine}

/-- The machine that a document gives can be put together. -/
theorem assembled_of_build (h : model.build = .ok m) : m.Assembled := by
  obtain ⟨-, -, rfl⟩ := build_eq_ok_iff.mp h
  obtain ⟨-, htidy⟩ := model.rows_skeleton
  have hvertices : model.skeleton.machine.Assembled :=
    (Skeleton.assembled_addAll Machine.root ⟨Machine.new model.name, _⟩ (.new model.name)
      Nat.zero_lt_one
      model.vertices).1
  have howners : ∀ b ∈ model.skeleton.finish.behaviors, b.owner < model.skeleton.machine.size := by
    intro b hb
    obtain ⟨x, hx, rfl⟩ := List.mem_map.mp hb
    exact htidy.owners x hx
  have hfinish := hvertices.addBehaviors _ howners
  rwa [htidy.behaviors, List.nil_append] at hfinish

/-- The transitions of a machine that a document gives lead to vertices that it has. -/
theorem targetsExist_of_build (h : model.build = .ok m) : m.TargetsExist := by
  obtain ⟨-, -, rfl⟩ := build_eq_ok_iff.mp h
  intro b hb t ht
  obtain ⟨x, -, rfl⟩ := List.mem_map.mp hb
  rw [Skeleton.built, BehaviorDoc.resolve, Behavior.addTriggers_target] at ht
  obtain ⟨text, -, hfound⟩ := Option.bind_eq_some_iff.mp ht
  exact (Skeleton.describe_of_idxOf? hfound).1

/-- No two vertices of a machine that a document gives have the same description. -/
theorem distinct_of_build (h : model.build = .ok m) : m.Distinct := by
  obtain ⟨hnodup, -, rfl⟩ := build_eq_ok_iff.mp h
  rw [← model.rows_skeleton.1] at hnodup
  intro v hv w hw hdesc
  have hdescribe (v : Nat) : model.skeleton.finish.describe v = model.skeleton.machine.describe v :=
    Machine.describe_behaviors ..
  rw [hdescribe, hdescribe] at hdesc
  exact Skeleton.distinct_of_nodup hnodup v hv w hw hdesc

/-- The final states of a machine that a document gives have no behaviors. -/
theorem behaviorsOf_of_build {v : Nat} (h : model.build = .ok m) (hv : v < m.size)
    (hkind : m.kind v = .final) :
    m.behaviorsOf v = [] := by
  obtain ⟨-, -, rfl⟩ := build_eq_ok_iff.mp h
  have hrow : model.skeleton.row v ∈ model.rows := by
    rw [← model.rows_skeleton.1]
    exact List.mem_map.mpr ⟨v, List.mem_range.mpr hv, rfl⟩
  rw [ModelDoc.rows, List.mem_cons] at hrow
  have hdocs : model.skeleton.docs v = [] := by
    cases hrow with
    | inl hroot =>
      have hfinal := (congrArg Row.kind hroot).symm.trans hkind
      cases hfinal
    | inr hinside => exact VertexDoc.behaviors_of_mem_rowsAll hkind model.vertices hinside
  rw [Skeleton.behaviorsOf_finish, hdocs]
  rfl

end ModelDoc

end Statechart
