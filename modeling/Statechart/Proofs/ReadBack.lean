import Statechart.Proofs.Placement
import Statechart.Proofs.Rejections
import Statechart.Proofs.Reordering

/-!
# Reading a machine back

The document of a machine is found by walking through it from the root: every vertex gives what it
is, its behaviors with their targets by description, and what is right inside it. The machine that a
model gives is numbered along that walk, and reading it back gives the model again, with the
triggers and targets in the form that machines keep them in and without the description of the
document.
-/

namespace Statechart

/-- Adding triggers appends their normal forms, each once, without those that are there already. -/
theorem Behavior.foldl_addTrigger (triggers : List String) (b : Behavior) :
    triggers.foldl addTrigger b =
      { b with triggers := b.triggers ++
        ((triggers.map Trigger.normalize).filter fun trigger =>
          !b.triggers.contains trigger).eraseDups } := by
  induction triggers generalizing b with
  | nil => simp
  | cons trigger rest ih =>
    rw [List.foldl_cons, ih, addTrigger, List.map_cons]
    by_cases hmem : b.triggers.contains (Trigger.normalize trigger)
    · rw [if_pos hmem, List.filter_cons_of_neg (by simpa using hmem)]
    · have hlater : (rest.map Trigger.normalize).filter
            (fun t => !(b.triggers ++ [Trigger.normalize trigger]).contains t) =
          (rest.map Trigger.normalize).filter
            fun t => (!t == Trigger.normalize trigger) && !b.triggers.contains t :=
        List.filter_congr fun t _ => by
          rw [List.contains_append, Bool.not_or, Bool.and_comm, List.contains_cons,
            List.contains_nil, Bool.or_false]
      rw [if_neg hmem, List.filter_cons_of_pos (by simpa using hmem), List.eraseDups_cons,
        List.filter_filter, hlater, List.append_assoc, List.singleton_append]

/-- The behavior in the form that machines keep it in: triggers in normal form and each once, the
target without surrounding white space. -/
def BehaviorDoc.normalize (b : BehaviorDoc) : BehaviorDoc :=
  { b with
    triggers := (b.triggers.map Trigger.normalize).eraseDups
    target := b.target.map Text.trim }

namespace VertexDoc

mutual

/-- The vertex with all behaviors in the form that machines keep them in. -/
def normalize : VertexDoc → VertexDoc
  | state name behaviors vertices =>
    state name (behaviors.map BehaviorDoc.normalize) (normalizeAll vertices)
  | initial behaviors => initial (behaviors.map BehaviorDoc.normalize)
  | point kind label behaviors => point kind label (behaviors.map BehaviorDoc.normalize)
  | final => final

/-- The vertices with all behaviors in the form that machines keep them in. -/
def normalizeAll : List VertexDoc → List VertexDoc
  | [] => []
  | vertex :: rest => vertex.normalize :: normalizeAll rest

end

/-- The vertex of a document that is of the given kind, if documents have such a vertex. -/
def ofParts : Kind → List BehaviorDoc → List VertexDoc → Option VertexDoc
  | .state name, behaviors, vertices => some (state name behaviors vertices)
  | .initial, behaviors, [] => some (initial behaviors)
  | .point kind label, behaviors, [] => some (point kind label behaviors)
  | .final, [], [] => some final
  | _, _, _ => none

end VertexDoc

/-- The model with all behaviors in the form that machines keep them in, and
without its description. -/
def ModelDoc.normalize (model : ModelDoc) : ModelDoc where
  name := model.name
  behaviors := model.behaviors.map BehaviorDoc.normalize
  vertices := VertexDoc.normalizeAll model.vertices

namespace Machine

/-- Put together a value for `v` from the values for what is right inside it. -/
def collect {α : Type} (m : Machine) (f : Nat → List α → α) (v : Nat) : α :=
  f v ((m.children v).attach.map fun c => m.collect f c.1)
termination_by m.size - v
decreasing_by
  have hparent := mem_children.mp c.2
  have := parent_lt hparent
  have := lt_size_of_parent hparent
  omega

/-- The vertex and everything inside it, outside in and siblings in their order. -/
def preorder (m : Machine) : Nat → List Nat := m.collect fun v inner => v :: inner.flatten

/-- The document of a behavior, with its target by description. -/
def readBehavior (m : Machine) (b : Behavior) : BehaviorDoc :=
  ⟨b.triggers, b.guard, b.action, b.target.map m.describe⟩

/-- The documents of the behaviors of a vertex. -/
def readBehaviors (m : Machine) (v : Nat) : List BehaviorDoc := (m.behaviorsOf v).map m.readBehavior

/-- The document of a vertex with everything inside it. -/
def readVertex (m : Machine) : Nat → Option VertexDoc :=
  m.collect fun v inner => (inner.mapM id).bind (VertexDoc.ofParts (m.kind v) (m.readBehaviors v))

/-- The document of a machine. -/
def read (m : Machine) : Option ModelDoc :=
  match m.kind root with
  | .root name => ((m.children root).mapM m.readVertex).map fun vertices =>
    { name := name, behaviors := m.readBehaviors root, vertices := vertices }
  | _ => none

/-- Collecting goes from a vertex to what is right inside it. -/
theorem collect_eq {α : Type} (m : Machine) (f : Nat → List α → α) (v : Nat) :
    m.collect f v = f v ((m.children v).map (m.collect f)) := by
  rw [collect, List.map_attach_eq_pmap, List.pmap_eq_map]

/-- The walk through a vertex goes on with what is right inside it. -/
theorem preorder_eq (m : Machine) (v : Nat) :
    m.preorder v = v :: (m.children v).flatMap m.preorder := by
  rw [preorder, collect_eq, List.flatMap_def]

/-- A vertex is read with what is right inside it. -/
theorem readVertex_eq (m : Machine) (v : Nat) :
    m.readVertex v =
      ((m.children v).mapM m.readVertex).bind
        (VertexDoc.ofParts (m.kind v) (m.readBehaviors v)) := by
  rw [readVertex, collect_eq, List.mapM_map]
  rfl

end Machine

namespace Skeleton

variable {sk : Skeleton} {v : Nat} {node : Node}

/-- The targets of all behaviors that are to be added are known. -/
def AllKnown (sk : Skeleton) : Prop := ∀ x ∈ sk.pending, x.2.Known (sk.rows.map Row.description)

/-- A behavior with a known target is read back in normal form. -/
theorem readBehavior_built {b : BehaviorDoc} (v : Nat)
    (hknown : b.Known (sk.rows.map Row.description)) :
    sk.finish.readBehavior (built (sk.rows.map Row.description) (v, b)) = b.normalize := by
  have htarget :
      (b.target.bind fun t => (sk.rows.map Row.description).idxOf? (Text.trim t)).map
        sk.finish.describe =
      b.target.map Text.trim := by
    cases ht : b.target with
    | none => rfl
    | some t =>
      obtain ⟨i, hi⟩ := Option.isSome_iff_exists.mp (List.isSome_idxOf?.mpr (hknown t ht))
      have hdescribe : sk.finish.describe i = sk.machine.describe i := Machine.describe_behaviors ..
      rw [Option.bind_some, hi, Option.map_some, Option.map_some, hdescribe,
        (describe_of_idxOf? hi).2]
  rw [built, BehaviorDoc.resolve, Behavior.foldl_addTrigger, Machine.readBehavior,
    BehaviorDoc.normalize]
  simp [htarget]

/-- The behaviors of a vertex are read back in normal form. -/
theorem readBehaviors_finish (hknown : sk.AllKnown) (v : Nat) :
    sk.finish.readBehaviors v = (sk.docs v).map BehaviorDoc.normalize := by
  rw [Machine.readBehaviors, behaviorsOf_finish, List.map_map]
  refine List.map_congr_left fun b hb => readBehavior_built v ?_
  have hpending : (v, b) ∈ sk.pending := by simpa [docs] using hb
  exact hknown (v, b) hpending

/-- The walk through a vertex goes on with the children at its place. -/
theorem preorder_of_node (h : sk.node v = node) :
    sk.finish.preorder v = v :: node.children.flatMap sk.finish.preorder := by
  rw [Machine.preorder_eq, ← h]
  rfl

/-- A vertex is read as what is at its place. -/
theorem readVertex_of_node (hknown : sk.AllKnown) (h : sk.node v = node) :
    sk.finish.readVertex v = (node.children.mapM sk.finish.readVertex).bind
      (VertexDoc.ofParts node.kind (node.behaviors.map BehaviorDoc.normalize)) := by
  rw [Machine.readVertex_eq, readBehaviors_finish hknown, ← h]
  rfl

mutual

/-- The walk through a vertex goes along the numbers from its place on. -/
theorem Placed.preorder (v : Nat) : (vertex : VertexDoc) → Placed sk v vertex →
    sk.finish.preorder v = List.range' v vertex.size
  | .state name behaviors vertices, h => by
    rw [preorder_of_node h.1, PlacedAll.preorder (v + 1) vertices h.2, VertexDoc.size,
      List.range'_succ]
  | .initial behaviors, h => preorder_of_node h
  | .point kind label behaviors, h => preorder_of_node h
  | .final, h => preorder_of_node h

/-- The walk through vertices one after the other goes along the numbers from their place on. -/
theorem PlacedAll.preorder (v : Nat) : (vertices : List VertexDoc) → PlacedAll sk v vertices →
    (VertexDoc.places v vertices).flatMap sk.finish.preorder =
      List.range' v (VertexDoc.sizeAll vertices)
  | [], _ => rfl
  | vertex :: rest, h => by
    rw [VertexDoc.places, List.flatMap_cons, Placed.preorder v vertex h.1,
      PlacedAll.preorder (v + vertex.size) rest h.2, VertexDoc.sizeAll, List.range'_append_1]

end

mutual

/-- A vertex at its place is read back in normal form. -/
theorem Placed.readVertex (hknown : sk.AllKnown) (v : Nat) :
    (vertex : VertexDoc) → Placed sk v vertex →
    sk.finish.readVertex v = some vertex.normalize
  | .state name behaviors vertices, h => by
    rw [readVertex_of_node hknown h.1, PlacedAll.readVertex hknown (v + 1) vertices h.2]
    rfl
  | .initial behaviors, h => readVertex_of_node hknown h
  | .point kind label behaviors, h => readVertex_of_node hknown h
  | .final, h => readVertex_of_node hknown h

/-- Vertices one after the other, each at its place, are read back in normal form. -/
theorem PlacedAll.readVertex (hknown : sk.AllKnown) (v : Nat) : (vertices : List VertexDoc) →
    PlacedAll sk v vertices →
    (VertexDoc.places v vertices).mapM sk.finish.readVertex = some (VertexDoc.normalizeAll vertices)
  | [], _ => rfl
  | vertex :: rest, h => by
    rw [VertexDoc.places, List.mapM_cons, Placed.readVertex hknown v vertex h.1,
      PlacedAll.readVertex hknown (v + vertex.size) rest h.2]
    rfl

end

/-- The behaviors of a finished machine stand vertex by vertex. -/
theorem behaviors_finish (htidy : sk.Tidy) :
    sk.finish.behaviors = sk.finish.ids.flatMap sk.finish.behaviorsOf := by
  have hpending : sk.finish.behaviors =
    (sk.machine.ids.flatMap fun v => (sk.docs v).map (Prod.mk v)).map
      (built (sk.rows.map Row.description)) := congrArg _ htidy.order
  rw [hpending, List.map_flatMap]
  refine List.flatMap_congr fun v _ => ?_
  rw [behaviorsOf_finish, List.map_map]
  rfl

end Skeleton

namespace ModelDoc

variable {model : ModelDoc}

/-- A model gives a machine exactly if its descriptions differ and every target is one of them. -/
theorem exists_build_eq_ok_iff :
    (∃ m, model.build = .ok m) ↔
      model.descriptions.Nodup ∧ ∀ x ∈ model.ownedBehaviors, x.2.Known model.descriptions := by
  have hbehaviors : (∀ x ∈ model.ownedBehaviors, x.2.Known model.descriptions) ↔
      ∀ row ∈ model.rows, ∀ b ∈ row.behaviors, b.Known model.descriptions := by
    simp only [ownedBehaviors, List.mem_flatMap, List.mem_map]
    constructor
    · intro h row hrow b hb
      exact h (row.description, b) ⟨row, hrow, b, hb, rfl⟩
    · rintro h x ⟨row, hrow, b, hb, rfl⟩
      exact h row hrow b hb
  rw [hbehaviors]
  simp only [build_eq_ok_iff, exists_and_left, exists_eq', and_true, descriptions]

/-- The targets in a model are known if those in its rows are. -/
theorem allKnown_skeleton
    (h : ∀ row ∈ model.rows, ∀ b ∈ row.behaviors, b.Known (model.rows.map Row.description)) :
    model.skeleton.AllKnown := by
  obtain ⟨hrows, htidy⟩ := model.rows_skeleton
  rw [Skeleton.AllKnown, hrows, Skeleton.forall_pending_iff htidy (·.Known _), hrows]
  exact h

/-- The walk through the machine of a model goes along the numbers of its vertices. -/
theorem preorder_skeleton (model : ModelDoc) :
    model.skeleton.finish.preorder Machine.root = model.skeleton.finish.ids := by
  obtain ⟨hsize, hroot, hplaced⟩ := model.placed_skeleton
  have hids : model.skeleton.finish.ids = List.range (VertexDoc.sizeAll model.vertices + 1) :=
    congrArg _ hsize
  rw [Skeleton.preorder_of_node hroot, hplaced.preorder, hids, List.range_eq_range',
    List.range'_succ]
  rfl

/-- The machine of a model is read back as the model in normal form. -/
theorem read_skeleton (hknown : model.skeleton.AllKnown) :
    model.skeleton.finish.read = some model.normalize := by
  obtain ⟨-, hroot, hplaced⟩ := model.placed_skeleton
  have hkind : model.skeleton.finish.kind Machine.root = .root model.name :=
    congrArg Node.kind hroot
  have hchildren : model.skeleton.finish.children Machine.root =
      VertexDoc.places 1 model.vertices :=
    congrArg Node.children hroot
  have hdocs : model.skeleton.docs Machine.root = model.behaviors := congrArg Node.behaviors hroot
  rw [Machine.read, hkind, hchildren, hplaced.readVertex hknown,
    Skeleton.readBehaviors_finish hknown, hdocs]
  rfl

/-- A model gives a machine exactly if no description is repeated and every target is one of the
descriptions. If there is a repeated description, the error names the first one, and otherwise the
owner and the target of the first behavior that misses its target. The vertices of the machine are
numbered in the order of the document, which is the order of a walk through the machine, its
behaviors stand vertex by vertex, and reading it back gives the model in normal form. -/
theorem build_faithful (model : ModelDoc) :
    ((∃ m, model.build = .ok m) ↔
      model.descriptions.Nodup ∧ ∀ x ∈ model.ownedBehaviors, x.2.Known model.descriptions) ∧
    (∀ s, model.build = .error (.duplicateVertex s) ↔ FirstRepeat model.descriptions s) ∧
    (∀ owner target, model.build = .error (.unknownTarget owner target) ↔
      model.descriptions.Nodup ∧ FirstMiss model.ownedBehaviors model.descriptions owner target) ∧
    ∀ m, model.build = .ok m →
      m.preorder Machine.root = m.ids ∧ m.ids.map m.describe = model.descriptions ∧
      m.behaviors = m.ids.flatMap m.behaviorsOf ∧ m.read = some model.normalize := by
  refine ⟨exists_build_eq_ok_iff, fun s => build_eq_duplicateVertex_iff,
    fun owner target => build_eq_unknownTarget_iff, fun m hm => ?_⟩
  obtain ⟨-, hknown, rfl⟩ := build_eq_ok_iff.mp hm
  refine ⟨model.preorder_skeleton, ?_, Skeleton.behaviors_finish model.rows_skeleton.2,
    read_skeleton (allKnown_skeleton hknown)⟩
  rw [← model.describe_skeleton]
  exact List.map_congr_left fun v _ => Machine.describe_behaviors ..

/-- A lamp that is pushed on and off, with its targets and triggers written untidily. -/
def untidyLamp : ModelDoc where
  name := "Lamp"
  description := some "A lamp that is pushed on and off."
  vertices := [
    .initial [{ target := some "Off " }],
    .state "Off" [{ triggers := ["Push", "turn", " push"], target := some " On" }] [],
    .state "On" [{ triggers := ["push"], target := some "Off" }] [.final]]

/-- The untidy lamp gives a machine, which is numbered in the order of the document and
reads back tidily. -/
theorem untidyLamp_faithful :
    ∃ m, untidyLamp.build = .ok m ∧ m.preorder Machine.root = m.ids ∧
      m.read = some {
        name := "Lamp"
        vertices := [
          .initial [{ target := some "Off" }],
          .state "Off" [{ triggers := ["push", "turn"], target := some "On" }] [],
          .state "On" [{ triggers := ["push"], target := some "Off" }] [.final]] } := by
  have hinitial : BehaviorDoc.normalize { target := some "Off " } = { target := some "Off" } := by
    decide +kernel
  have hoff :
      BehaviorDoc.normalize { triggers := ["Push", "turn", " push"], target := some " On" } =
      { triggers := ["push", "turn"], target := some "On" } := by decide +kernel
  have hon : BehaviorDoc.normalize { triggers := ["push"], target := some "Off" } =
      { triggers := ["push"], target := some "Off" } := by decide +kernel
  obtain ⟨m, hm⟩ : ∃ m, untidyLamp.build = .ok m := exists_eq_ok (by decide +kernel)
  obtain ⟨hpreorder, -, -, hread⟩ := (build_faithful untidyLamp).2.2.2 m hm
  refine ⟨m, hm, hpreorder, ?_⟩
  simpa only [normalize, untidyLamp, VertexDoc.normalizeAll, VertexDoc.normalize, List.map_cons,
    List.map_nil, hinitial, hoff, hon] using hread

end ModelDoc

end Statechart
