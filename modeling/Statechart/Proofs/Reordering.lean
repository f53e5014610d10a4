import Mathlib.Data.List.Nodup
import Mathlib.Data.List.Perm.Subperm
import Statechart.Proofs.Built
import Statechart.Proofs.Renaming.Compile

/-!
# The order of siblings does not matter

Two models that differ in the order of siblings have the same rows in another order. If one gives a
machine, so does the other, and the two machines differ in the numbers of their vertices only. A
valid model then gives the same file, or fails in the same way. The problems of an invalid model are
reported in the order of declaration, so there the order of the messages may differ.
-/

namespace Statechart

/-- The same vertices, with siblings in another order at any depth. -/
inductive Reordered : List VertexDoc → List VertexDoc → Prop
  | nil : Reordered [] []
  | cons (vertex : VertexDoc) {vs ws : List VertexDoc} (h : Reordered vs ws) :
      Reordered (vertex :: vs) (vertex :: ws)
  | inside (name : String) (behaviors : List BehaviorDoc)
      {vertices vertices' vs ws : List VertexDoc}
      (hinside : Reordered vertices vertices') (h : Reordered vs ws) :
      Reordered (.state name behaviors vertices :: vs) (.state name behaviors vertices' :: ws)
  | swap (v w : VertexDoc) (vs : List VertexDoc) : Reordered (v :: w :: vs) (w :: v :: vs)
  | trans {us vs ws : List VertexDoc} (h : Reordered us vs) (h' : Reordered vs ws) : Reordered us ws

/-- The same model, with siblings in another order at any depth. -/
structure ModelDoc.Reordered (model model' : ModelDoc) : Prop where
  name : model'.name = model.name
  description : model'.description = model.description
  behaviors : model'.behaviors = model.behaviors
  vertices : Statechart.Reordered model.vertices model'.vertices

/-- Siblings in another order have their rows in another order. -/
theorem Reordered.rowsAll {vs ws : List VertexDoc} (h : Reordered vs ws) (parent : String) :
    (VertexDoc.rowsAll parent ws).Perm (VertexDoc.rowsAll parent vs) := by
  induction h generalizing parent with
  | nil => exact .refl _
  | cons vertex h ih => exact (ih parent).append_left _
  | inside name behaviors hinside h ihinside ih => exact ((ihinside name).cons _).append (ih parent)
  | swap v w vs =>
    rw [VertexDoc.rowsAll, VertexDoc.rowsAll, VertexDoc.rowsAll, VertexDoc.rowsAll,
      ← List.append_assoc, ← List.append_assoc]
    exact List.perm_append_comm.append_right _
  | trans h h' ih ih' => exact (ih' parent).trans (ih parent)

/-- A reordered model has its rows in another order. -/
theorem ModelDoc.Reordered.rows {model model' : ModelDoc} (h : model.Reordered model') :
    model'.rows.Perm model.rows := by
  rw [ModelDoc.rows, h.name, h.behaviors, ModelDoc.rows]
  exact (h.vertices.rowsAll "ROOT").cons _

namespace Skeleton

variable {sk sk' : Skeleton} {f : Nat → Nat}

/-- Vertices of two skeletons correspond so that their rows are the same. -/
structure Matching (sk sk' : Skeleton) (f : Nat → Nat) : Prop where
  size : sk'.machine.size = sk.machine.size
  lt : ∀ v < sk.machine.size, f v < sk.machine.size
  row : ∀ v < sk.machine.size, sk'.row (f v) = sk.row v
  beyond : ∀ v, sk.machine.size ≤ v → f v = v
  distinct : sk.machine.Distinct
  distinct' : sk'.machine.Distinct

/-- The vertices of skeletons with the same rows in another order correspond. -/
theorem exists_matching (hperm : sk'.rows.Perm sk.rows)
    (hnodup : (sk.rows.map Row.description).Nodup) :
    ∃ f, sk.Matching sk' f := by
  have hsize : sk'.machine.size = sk.machine.size := by
    rw [← length_rows, hperm.length_eq, length_rows]
  have hex (v : Nat) : ∃ w, v < sk.machine.size → w < sk.machine.size ∧ sk'.row w = sk.row v := by
    by_cases hv : v < sk.machine.size
    · have hmem : sk.row v ∈ sk'.rows :=
        hperm.mem_iff.mpr (List.mem_map.mpr ⟨v, List.mem_range.mpr hv, rfl⟩)
      obtain ⟨w, hw, hrow⟩ := List.mem_map.mp hmem
      exact ⟨w, fun _ => ⟨hsize ▸ List.mem_range.mp hw, hrow⟩⟩
    · exact ⟨v, fun h => absurd h hv⟩
  choose g hg using hex
  have hnodup' : (sk'.rows.map Row.description).Nodup :=
    (hperm.map Row.description).nodup_iff.mpr hnodup
  refine ⟨fun v => if v < sk.machine.size then g v else v, hsize, ?_, ?_, ?_,
    distinct_of_nodup hnodup, distinct_of_nodup hnodup'⟩
  · intro v hv
    simpa [hv] using (hg v hv).1
  · intro v hv
    simpa [hv] using (hg v hv).2
  · intro v hv
    simp [Nat.not_lt.mpr hv]

namespace Matching

variable (h : sk.Matching sk' f)
include h

/-- Descriptions are the same. -/
theorem describe {v : Nat} (hv : v < sk.machine.size) :
    sk'.machine.describe (f v) = sk.machine.describe v :=
  congrArg Row.description (h.row v hv)

/-- Different vertices correspond to different ones. -/
theorem injective {v w : Nat} (heq : f v = f w) : v = w := by
  by_cases hv : v < sk.machine.size
  · by_cases hw : w < sk.machine.size
    · refine h.distinct v hv w hw ?_
      rw [← h.describe hv, heq, h.describe hw]
    · have hlt := h.lt v hv
      rw [heq, h.beyond w (Nat.le_of_not_lt hw)] at hlt
      exact absurd hlt hw
  · by_cases hw : w < sk.machine.size
    · have hlt := h.lt w hw
      rw [← heq, h.beyond v (Nat.le_of_not_lt hv)] at hlt
      exact absurd hlt hv
    · rwa [h.beyond v (Nat.le_of_not_lt hv), h.beyond w (Nat.le_of_not_lt hw)] at heq

/-- A vertex is the one that corresponds to another if it has the other's description. -/
theorem eq_of_describe {v w : Nat} (hv : v < sk.machine.size) (hw : w < sk.machine.size)
    (hdesc : sk'.machine.describe w = sk.machine.describe v) : w = f v := by
  refine h.distinct' w ?_ (f v) ?_ (hdesc.trans (h.describe hv).symm)
  · rwa [h.size]
  · rw [h.size]
    exact h.lt v hv

/-- The numbers of one skeleton are those of the other, in another order. -/
theorem ids : sk'.machine.ids.Perm (sk.machine.ids.map f) := by
  have hsub : sk.machine.ids.map f ⊆ sk'.machine.ids := by
    intro w hw
    obtain ⟨v, hv, rfl⟩ := List.mem_map.mp hw
    rw [Machine.ids, List.mem_range, h.size]
    exact h.lt v (List.mem_range.mp hv)
  have hnodup : (sk.machine.ids.map f).Nodup := List.nodup_range.map fun _ _ heq => h.injective heq
  have hlength : sk'.machine.ids.length ≤ (sk.machine.ids.map f).length := by
    simp [Machine.ids, h.size]
  exact ((List.Nodup.subperm hnodup hsub).perm_of_length_le hlength).symm

/-- Kinds are the same. -/
theorem kind (v : Nat) : sk'.machine.kind (f v) = sk.machine.kind v := by
  by_cases hv : v < sk.machine.size
  · exact congrArg Row.kind (h.row v hv)
  · have hout : sk.machine.size ≤ v := Nat.le_of_not_lt hv
    have hout' : sk'.machine.size ≤ v := h.size ▸ hout
    rw [h.beyond v hout, Machine.kind, Machine.kind, Array.getElem?_eq_none hout,
      Array.getElem?_eq_none hout']

/-- Parents are the same. -/
theorem parent (v : Nat) : sk'.machine.parent (f v) = (sk.machine.parent v).map f := by
  by_cases hv : v < sk.machine.size
  · have hrow : (sk'.machine.parent (f v)).map sk'.machine.describe =
        (sk.machine.parent v).map sk.machine.describe := congrArg Row.parent (h.row v hv)
    cases hp : sk.machine.parent v with
    | none =>
      rw [hp, Option.map_none, Option.map_eq_none_iff] at hrow
      rw [hrow, Option.map_none]
    | some p =>
      rw [hp, Option.map_some, Option.map_eq_some_iff] at hrow
      obtain ⟨q, hq, hdesc⟩ := hrow
      have hqlt : q < sk.machine.size := Nat.lt_trans (Machine.parent_lt hq) (h.lt v hv)
      rw [hq, Option.map_some, h.eq_of_describe (Nat.lt_trans (Machine.parent_lt hp) hv) hqlt hdesc]
  · have hout : sk.machine.size ≤ v := Nat.le_of_not_lt hv
    have hout' : sk'.machine.size ≤ v := h.size ▸ hout
    rw [h.beyond v hout, Machine.parent, Machine.parent, Machine.holder, Machine.holder,
      Array.getElem?_eq_none hout, Array.getElem?_eq_none hout']
    rfl

/-- The behaviors to be added are the same. -/
theorem docs (htidy : sk.Tidy) (htidy' : sk'.Tidy) (v : Nat) : sk'.docs (f v) = sk.docs v := by
  by_cases hv : v < sk.machine.size
  · exact congrArg Row.behaviors (h.row v hv)
  · have hnone {sk : Skeleton} (htidy : sk.Tidy) (hout : sk.machine.size ≤ v) : sk.docs v = [] := by
      rw [Skeleton.docs, List.filter_eq_nil_iff.mpr, List.map_nil]
      intro x hx heq
      exact Nat.not_lt.mpr hout (beq_iff_eq.mp heq ▸ htidy.owners x hx)
    have hout : sk.machine.size ≤ v := Nat.le_of_not_lt hv
    rw [h.beyond v hout, hnone htidy hout, hnone htidy' (h.size ▸ hout)]

end Matching

end Skeleton

/-- Adding triggers takes no notice of numbers. -/
theorem Behavior.rename_addTriggers (f : Nat → Nat) (triggers : List String) (b : Behavior) :
    (triggers.foldl addTrigger b).rename f = triggers.foldl addTrigger (b.rename f) := by
  induction triggers generalizing b with
  | nil => rfl
  | cons trigger rest ih =>
    have hadd : (b.addTrigger trigger).rename f = (b.rename f).addTrigger trigger := by
      by_cases hmem : b.triggers.contains (Trigger.normalize trigger)
      · rw [addTrigger, addTrigger, if_pos hmem, triggers_rename, if_pos hmem]
      · rw [addTrigger, addTrigger, if_neg hmem, triggers_rename, if_neg hmem]
        rfl
    rw [List.foldl_cons, ih, hadd, List.foldl_cons]

/-- Adding triggers takes no notice of who has the behavior. -/
theorem Behavior.addTriggers_owner (owner : Nat) (triggers : List String) (b : Behavior) :
    { triggers.foldl addTrigger b with owner := owner } =
      triggers.foldl addTrigger { b with owner := owner } := by
  induction triggers generalizing b with
  | nil => rfl
  | cons trigger rest ih =>
    have hadd : { b.addTrigger trigger with owner := owner } =
        { b with owner := owner }.addTrigger trigger := by
      simp only [addTrigger]
      split <;> rfl
    rw [List.foldl_cons, ih, hadd, List.foldl_cons]

namespace Skeleton

variable {sk sk' : Skeleton} {f : Nat → Nat}

/-- Targets are found under the number that corresponds. -/
theorem Matching.idxOf? (h : sk.Matching sk' f) (hperm : sk'.rows.Perm sk.rows) {s : String}
    (hs : s ∈ sk.rows.map Row.description) :
    (sk'.rows.map Row.description).idxOf? s = ((sk.rows.map Row.description).idxOf? s).map f := by
  have hs' : s ∈ sk'.rows.map Row.description := (hperm.map Row.description).mem_iff.mpr hs
  obtain ⟨i, hi⟩ := Option.isSome_iff_exists.mp (List.isSome_idxOf?.mpr hs)
  obtain ⟨j, hj⟩ := Option.isSome_iff_exists.mp (List.isSome_idxOf?.mpr hs')
  obtain ⟨hilt, hidesc⟩ := describe_of_idxOf? hi
  obtain ⟨hjlt, hjdesc⟩ := describe_of_idxOf? hj
  rw [hi, hj, Option.map_some, h.eq_of_describe hilt (h.size ▸ hjlt) (hjdesc.trans hidesc.symm)]

/-- Behaviors are built alike. -/
theorem Matching.built (h : sk.Matching sk' f) (hperm : sk'.rows.Perm sk.rows) {b : BehaviorDoc}
    (v : Nat) (hknown : b.Known (sk.rows.map Row.description)) :
    Skeleton.built (sk'.rows.map Row.description) (f v, b) =
      (Skeleton.built (sk.rows.map Row.description) (v, b)).rename f := by
  have htarget : (b.target.bind fun t => (sk'.rows.map Row.description).idxOf? (Text.trim t)) =
      (b.target.bind fun t => (sk.rows.map Row.description).idxOf? (Text.trim t)).map f := by
    cases ht : b.target with
    | none => rfl
    | some t => exact h.idxOf? hperm (hknown t ht)
  rw [Skeleton.built, Skeleton.built, BehaviorDoc.resolve, BehaviorDoc.resolve,
    Behavior.addTriggers_owner, Behavior.addTriggers_owner, Behavior.rename_addTriggers, htarget]
  rfl

/-- The finished machines differ in numbers only. -/
theorem Matching.renaming (h : sk.Matching sk' f) (htidy : sk.Tidy) (htidy' : sk'.Tidy)
    (hperm : sk'.rows.Perm sk.rows) (hroot : f Machine.root = Machine.root)
    (hknown : ∀ row ∈ sk.rows, ∀ b ∈ row.behaviors, b.Known (sk.rows.map Row.description))
    (htree : sk.finish.IsTree) (htree' : sk'.finish.IsTree) : sk.finish.Renaming sk'.finish f where
  root := hroot
  injective := h.injective
  ids := h.ids
  kind := h.kind
  parent := h.parent
  behaviorsOf v := by
    rw [behaviorsOf_finish, behaviorsOf_finish, h.docs htidy htidy', List.map_map]
    refine List.map_congr_left fun b hb => h.built hperm v ?_
    have hpending : (v, b) ∈ sk.pending := by simpa [Skeleton.docs] using hb
    exact (forall_pending_iff htidy (·.Known _)).mpr hknown (v, b) hpending
  tree := htree
  tree' := htree'
  distinct v hv w hw hdesc := by
    have hdescribe (v : Nat) : sk.finish.describe v = sk.machine.describe v :=
      Machine.describe_behaviors ..
    rw [hdescribe, hdescribe] at hdesc
    exact h.distinct v hv w hw hdesc

end Skeleton

/-- If a model gives a machine, a reordered model gives one that differs in numbers only. -/
theorem ModelDoc.Reordered.exists_renaming {model model' : ModelDoc} {m : Machine}
    (h : model.Reordered model') (hm : model.build = .ok m) :
    ∃ m' f, model'.build = .ok m' ∧ m.Renaming m' f := by
  obtain ⟨hnodup, hknown, rfl⟩ := ModelDoc.build_eq_ok_iff.mp hm
  obtain ⟨hrows, htidy⟩ := model.rows_skeleton
  obtain ⟨hrows', htidy'⟩ := model'.rows_skeleton
  have hperm := h.rows
  have hdescriptions := hperm.map Row.description
  refine ⟨model'.skeleton.finish, ?_⟩
  have hbuild : model'.build = .ok model'.skeleton.finish := by
    refine ModelDoc.build_eq_ok_iff.mpr ⟨hdescriptions.nodup_iff.mpr hnodup, ?_, rfl⟩
    intro row hrow b hb t ht
    exact hdescriptions.mem_iff.mpr (hknown row (hperm.mem_iff.mp hrow) b hb t ht)
  rw [← hrows] at hnodup hknown hperm
  rw [← hrows'] at hperm
  obtain ⟨f, hf⟩ := Skeleton.exists_matching hperm hnodup
  -- The root is the only vertex with its description.
  obtain ⟨hlt, hdesc⟩ := model.root_skeleton
  have hroot : f Machine.root = Machine.root :=
    (hf.eq_of_describe hlt hlt (model'.root_skeleton.2.trans hdesc.symm)).symm
  exact ⟨f, hbuild,
    hf.renaming htidy htidy' hperm hroot hknown (ModelDoc.assembled_of_build hm).isTree
    (ModelDoc.assembled_of_build hbuild).isTree⟩

/-- What a compile error says, without the numbers of vertices. -/
inductive Report where
  | invalid (messages : List String)
  | autoVar (error : AutoVarError)
  | collision (collision : Naming.Collision)
  | broken (vertex : String) (invariant : Invariant)
  | expansion (vertex behavior : String) (error : Snippet.ExpansionError)
  | unevenIndent
deriving DecidableEq

/-- What a compile error of a machine says. -/
def CompileError.report (m : Machine) : CompileError → Report
  | invalid problems => .invalid (problems.map (Problem.message m))
  | autoVar error => .autoVar error
  | collision c => .collision c
  | fault (.broken v invariant) => .broken (m.describe v) invariant
  | fault (.expansion b error) => .expansion (m.describe b.owner) (m.diagramLine b) error
  | unevenIndent => .unevenIndent

/-- What comes of generating the file for a machine: its text, or what the error says. -/
def Machine.outcome (m : Machine) (config : Config) : Except Report String :=
  (m.generate config).mapError (CompileError.report m)

namespace Machine.Renaming

variable {m m' : Machine} {f : Nat → Nat} (h : m.Renaming m' f)
include h

/-- Errors say the same under other numbers. -/
theorem report (e : CompileError) : (e.rename f).report m' = e.report m := by
  unfold CompileError.report
  cases e with
  | invalid problems =>
    simp only [CompileError.rename, List.map_map]
    exact congrArg _ (List.map_congr_left fun problem _ => h.message problem)
  | fault error =>
    cases error <;>
      simp only [CompileError.rename, Fault.rename, Behavior.owner_rename, h.describe,
        h.diagramLine]
  | autoVar | collision | unevenIndent => rfl

/-- A valid machine gives the same file under other numbers, or fails in the same way. -/
theorem outcome (hvalid : m.problems = []) (config : Config) :
    m'.outcome config = m.outcome config := by
  rw [Machine.outcome, Machine.outcome, generate, generate, hvalid,
    h.problems_eq_nil_iff.mpr hvalid]
  cases config.expander with
  | error e => rfl
  | ok expander =>
    simp only [h.generateWith]
    cases m.generateWith config expander {} with
    | ok text => rfl
    | error e => exact congrArg Except.error (h.report e)

/-- An invalid machine is refused under other numbers with the same messages, up to order. -/
theorem outcome_invalid (hinvalid : m.problems ≠ []) (config : Config) :
    ∃ messages messages', m.outcome config = .error (.invalid messages) ∧
      m'.outcome config = .error (.invalid messages') ∧ messages'.Perm messages := by
  have hgenerate {m : Machine} (hinvalid : m.problems ≠ []) :
      m.outcome config = .error (.invalid (m.problems.map (Problem.message m))) := by
    rw [Machine.outcome, generate]
    cases hproblems : m.problems with
    | nil => exact absurd hproblems hinvalid
    | cons problem rest => rfl
  have hinvalid' : m'.problems ≠ [] := fun hvalid => hinvalid (h.problems_eq_nil_iff.mp hvalid)
  refine ⟨_, _, hgenerate hinvalid, hgenerate hinvalid', ?_⟩
  have hperm := h.problems.map (Problem.message m')
  have hmessages : Problem.message m' ∘ Problem.rename f = Problem.message m := funext h.message
  rwa [List.map_map, hmessages] at hperm

end Machine.Renaming

/-- A model with siblings in another order gives a machine if the model does, which is valid exactly
if the other one is. For a valid machine every configuration leads to the same file or the same
error, and for an invalid one to the same messages, up to their order. -/
theorem ModelDoc.Reordered.same_outcomes {model model' : ModelDoc} {m : Machine}
    (h : model.Reordered model') (hm : model.build = .ok m) :
    ∃ m', model'.build = .ok m' ∧ (m'.problems = [] ↔ m.problems = []) ∧
      (m.problems = [] → ∀ config, m'.outcome config = m.outcome config) ∧
      (m.problems ≠ [] → ∀ config, ∃ messages messages',
        m.outcome config = .error (.invalid messages) ∧
        m'.outcome config = .error (.invalid messages') ∧ messages'.Perm messages) := by
  obtain ⟨m', f, hbuild, hrenaming⟩ := h.exists_renaming hm
  exact ⟨m', hbuild, hrenaming.problems_eq_nil_iff, hrenaming.outcome, hrenaming.outcome_invalid⟩

/-- Two choices that lead nowhere, in the given order. -/
def stuckModel (first second : String) : ModelDoc where
  name := "Stuck"
  vertices := [.point .choice first [], .point .choice second []]

/-- The order of the messages does depend on that of siblings, since vertices report their problems
in the order of declaration. -/
theorem stuckModel_outcome_ne :
    (stuckModel "a" "b").Reordered (stuckModel "b" "a") ∧
      ∃ m m', (stuckModel "a" "b").build = .ok m ∧ (stuckModel "b" "a").build = .ok m' ∧
        m'.outcome {} ≠ m.outcome {} := by
  refine ⟨⟨rfl, rfl, rfl, .swap _ _ _⟩, (stuckModel "a" "b").skeleton.finish,
    (stuckModel "b" "a").skeleton.finish, ?_⟩
  decide +kernel

/-- A lamp that is pushed on and off, and is dim when on. -/
def lampModel : ModelDoc where
  name := "Lamp"
  vertices := [
    .initial [{ target := some "Off" }],
    .state "Off" [{ triggers := ["push"], target := some "On" }] [],
    .state "On" [{ triggers := ["push"], target := some "Off" }] [
      .initial [{ target := some "Dim" }],
      .state "Dim" [] []]]

/-- The lamp with siblings in another order at both levels. -/
def lampModelReordered : ModelDoc where
  name := "Lamp"
  vertices := [
    .initial [{ target := some "Off" }],
    .state "On" [{ triggers := ["push"], target := some "Off" }] [
      .state "Dim" [] [],
      .initial [{ target := some "Dim" }]],
    .state "Off" [{ triggers := ["push"], target := some "On" }] []]

/-- The two lamps are the same but for the order of siblings. -/
theorem lampModel_reordered : lampModel.Reordered lampModelReordered where
  name := rfl
  description := rfl
  behaviors := rfl
  vertices := .cons _ ((Reordered.swap _ _ _).trans (.inside _ _ (.swap _ _ _) (.cons _ .nil)))

/-- The lamp gives a valid machine in both orders, and the same file whatever the configuration. -/
theorem lampModel_outcome :
    ∃ m m', lampModel.build = .ok m ∧ lampModelReordered.build = .ok m' ∧ m.problems = [] ∧
      ∀ config, m'.outcome config = m.outcome config := by
  have hlamp : lampModel.build.toOption.map Machine.problems = some [] := by decide +kernel
  cases hm : lampModel.build with
  | error e =>
    rw [hm] at hlamp
    contradiction
  | ok m =>
    rw [hm] at hlamp
    have hvalid : m.problems = [] := Option.some.inj hlamp
    obtain ⟨m', hm', -, hvalid', -⟩ := lampModel_reordered.same_outcomes hm
    exact ⟨m, m', rfl, hm', hvalid, hvalid' hvalid⟩

end Statechart
