import Statechart.Document.Build
import Statechart.Proofs.Renaming.Machine

/-!
# Models as tables

A nested model is the same as a table with a row for each vertex, which gives the description of the
vertex and that of the vertex around it in place of numbers. Declaring vertices appends rows, so the
rows of a model can be read off its document and off the vertices that it declares. Whether a model
gives a machine depends on its rows only: descriptions must differ, and the targets of transitions
must be among them.
-/

namespace Statechart

/-- What a model says about a vertex, without numbers. -/
structure Row where
  description : String
  kind : Kind
  parent : Option String
  behaviors : List BehaviorDoc

namespace VertexDoc

mutual

/-- The rows of a vertex and of everything inside it. -/
def rows (parent : String) : VertexDoc → List Row
  | state name behaviors vertices =>
    ⟨name, .state name, some parent, behaviors⟩ :: rowsAll name vertices
  | initial behaviors => [⟨Kind.describeIn parent .initial, .initial, some parent, behaviors⟩]
  | point kind label behaviors =>
    [⟨Kind.describeIn parent (.point kind label), .point kind label, some parent, behaviors⟩]
  | final => [⟨Kind.describeIn parent .final, .final, some parent, []⟩]

/-- The rows of vertices one after the other. -/
def rowsAll (parent : String) : List VertexDoc → List Row
  | [] => []
  | vertex :: rest => rows parent vertex ++ rowsAll parent rest

end

end VertexDoc

/-- The rows of a model, the root's first. -/
def ModelDoc.rows (model : ModelDoc) : List Row :=
  ⟨"ROOT", .root model.name, none, model.behaviors⟩ :: VertexDoc.rowsAll "ROOT" model.vertices

namespace Machine

variable {m : Machine} {parent v : Nat} {kind : Kind}

/-- Declaring a vertex leaves the descriptions of the others. -/
theorem describe_addVertex_of_lt (h : v < m.size) :
    (m.addVertex parent kind).describe v = m.describe v := by
  refine describe_of_agree (f := id) (S := (· < m.size)) (fun v hv => kind_addVertex_of_lt hv)
    (fun v hv => ?_)
    (fun v p hv hp => Nat.lt_trans (parent_lt hp) hv) h
  rw [Option.map_id, id, id, parent_addVertex_of_lt hv]

/-- The description of a new vertex. -/
theorem describe_addVertex_size (h : parent < m.size) :
    (m.addVertex parent kind).describe m.size = kind.describeIn (m.describe parent) := by
  rw [describe_eq, kind_addVertex_size, parent_addVertex_size h, Option.elim_some,
    describe_addVertex_of_lt h]

end Machine

namespace Skeleton

variable {sk sk' : Skeleton} {parent v : Nat} {extra : List Row}

/-- The behaviors that are to be added to a vertex. -/
def docs (sk : Skeleton) (v : Nat) : List BehaviorDoc := (sk.pending.filter (·.1 == v)).map (·.2)

/-- The row of a vertex. -/
def row (sk : Skeleton) (v : Nat) : Row :=
  ⟨sk.machine.describe v, sk.machine.kind v, (sk.machine.parent v).map sk.machine.describe,
    sk.docs v⟩

/-- The rows of all vertices. -/
def rows (sk : Skeleton) : List Row := sk.machine.ids.map sk.row

/-- Behaviors are to be added to declared vertices only, vertex by vertex, and none is added yet. -/
structure Tidy (sk : Skeleton) : Prop where
  owners : ∀ x ∈ sk.pending, x.1 < sk.machine.size
  order : sk.pending = sk.machine.ids.flatMap fun v => (sk.docs v).map (Prod.mk v)
  behaviors : sk.machine.behaviors = []

/-- There are as many rows as vertices. -/
theorem length_rows (sk : Skeleton) : sk.rows.length = sk.machine.size := by
  rw [rows, List.length_map, Machine.ids, List.length_range]

/-- The row of a vertex is found under its number. -/
theorem getElem?_rows (h : v < sk.machine.size) : sk.rows[v]? = some (sk.row v) := by
  simp [rows, Machine.ids, h]

/-- Further rows leave the rows before. -/
theorem row_eq_of_append (h : sk'.rows = sk.rows ++ extra) (hv : v < sk.machine.size) :
    sk'.row v = sk.row v := by
  have hlength := congrArg List.length h
  rw [List.length_append, length_rows, length_rows] at hlength
  have hv' : v < sk'.machine.size := by omega
  have hrow := getElem?_rows hv'
  rw [h, List.getElem?_append_left (by rwa [length_rows]), getElem?_rows hv] at hrow
  exact (Option.some.inj hrow).symm

/-- Declaring a vertex adds no behavior to the others. -/
theorem docs_declare_of_lt (hv : v < sk.machine.size) (parent : Nat) (kind : Kind)
    (behaviors : List BehaviorDoc) :
    (sk.declare parent kind behaviors).docs v = sk.docs v := by
  have hne : sk.machine.size ≠ v := Nat.ne_of_gt hv
  simp [docs, declare, List.filter_append, List.filter_map, Function.comp_def, hne]

/-- The behaviors that are to be added to a new vertex. -/
theorem docs_declare_size (htidy : sk.Tidy) (parent : Nat) (kind : Kind)
    (behaviors : List BehaviorDoc) :
    (sk.declare parent kind behaviors).docs sk.machine.size = behaviors := by
  have hbefore : sk.pending.filter (·.1 == sk.machine.size) = [] :=
    List.filter_eq_nil_iff.mpr fun x hx => by simpa using Nat.ne_of_lt (htidy.owners x hx)
  simp [docs, declare, List.filter_append, hbefore, List.filter_map, Function.comp_def]

/-- Declaring a vertex appends its number. -/
theorem ids_declare (sk : Skeleton) (parent : Nat) (kind : Kind) (behaviors : List BehaviorDoc) :
    (sk.declare parent kind behaviors).machine.ids = sk.machine.ids ++ [sk.machine.size] := by
  rw [Machine.ids, declare, Machine.size_addVertex, List.range_succ, Machine.ids]

/-- Declaring a vertex leaves the rows before. -/
theorem row_declare_of_lt (hv : v < sk.machine.size) (parent : Nat) (kind : Kind)
    (behaviors : List BehaviorDoc) :
    (sk.declare parent kind behaviors).row v = sk.row v := by
  have hplace :
      ((sk.machine.addVertex parent kind).parent v).map
        (sk.machine.addVertex parent kind).describe =
      (sk.machine.parent v).map sk.machine.describe := by
    rw [Machine.parent_addVertex_of_lt hv]
    cases hp : sk.machine.parent v with
    | none => rfl
    | some p =>
      have hlt := Nat.lt_trans (Machine.parent_lt hp) hv
      rw [Option.map_some, Option.map_some, Machine.describe_addVertex_of_lt hlt]
  rw [row, docs_declare_of_lt hv, row]
  simp only [declare, Machine.describe_addVertex_of_lt hv, Machine.kind_addVertex_of_lt hv, hplace]

/-- The row of a new vertex. -/
theorem row_declare_size (htidy : sk.Tidy) (hparent : parent < sk.machine.size) (kind : Kind)
    (behaviors : List BehaviorDoc) :
    (sk.declare parent kind behaviors).row sk.machine.size =
      ⟨kind.describeIn (sk.machine.describe parent), kind, some (sk.machine.describe parent),
        behaviors⟩ := by
  rw [row, docs_declare_size htidy]
  simp only [declare, Machine.describe_addVertex_size hparent, Machine.kind_addVertex_size,
    Machine.parent_addVertex_size hparent, Option.map_some,
    Machine.describe_addVertex_of_lt hparent]

/-- Declaring a vertex appends its row. -/
theorem rows_declare (htidy : sk.Tidy) (hparent : parent < sk.machine.size) (kind : Kind)
    (behaviors : List BehaviorDoc) :
    (sk.declare parent kind behaviors).rows =
      sk.rows ++
        [⟨kind.describeIn (sk.machine.describe parent), kind, some (sk.machine.describe parent),
          behaviors⟩] := by
  have hold : ∀ v ∈ sk.machine.ids, (sk.declare parent kind behaviors).row v = sk.row v :=
    fun v hv => row_declare_of_lt (List.mem_range.mp hv) parent kind behaviors
  rw [rows, ids_declare, List.map_append, List.map_congr_left hold, List.map_singleton,
    row_declare_size htidy hparent, rows]

/-- Declaring a vertex keeps a skeleton tidy. -/
theorem Tidy.declare (h : sk.Tidy) (parent : Nat) (kind : Kind) (behaviors : List BehaviorDoc) :
    (sk.declare parent kind behaviors).Tidy where
  owners x hx := by
    have hsize : (sk.declare parent kind behaviors).machine.size = sk.machine.size + 1 :=
      Machine.size_addVertex ..
    rw [hsize]
    rcases List.mem_append.mp hx with hold | hnew
    · exact Nat.lt_succ_of_lt (h.owners x hold)
    · obtain ⟨b, -, rfl⟩ := List.mem_map.mp hnew
      exact Nat.lt_succ_self _
  order := by
    have hold : ∀ v ∈ sk.machine.ids, ((sk.declare parent kind behaviors).docs v).map (Prod.mk v) =
        (sk.docs v).map (Prod.mk v) := by
      intro v hv
      rw [docs_declare_of_lt (List.mem_range.mp hv)]
    rw [ids_declare, List.flatMap_append, List.flatMap_congr hold, ← h.order,
      List.flatMap_singleton, docs_declare_size h]
    rfl
  behaviors := h.behaviors

/-- Further rows leave the descriptions before. -/
theorem describe_eq_of_append (h : sk'.rows = sk.rows ++ extra) (hv : v < sk.machine.size) :
    sk'.machine.describe v = sk.machine.describe v :=
  congrArg Row.description (row_eq_of_append h hv)

/-- Further rows come from further vertices. -/
theorem lt_size_of_append (h : sk'.rows = sk.rows ++ extra) (hv : v < sk.machine.size) :
    v < sk'.machine.size := by
  have hlength := congrArg List.length h
  rw [List.length_append, length_rows, length_rows] at hlength
  omega

mutual

/-- Declaring a vertex with everything inside it appends its rows. -/
theorem rows_add (parent : Nat) (sk : Skeleton) (htidy : sk.Tidy)
    (hparent : parent < sk.machine.size) :
    (vertex : VertexDoc) →
    (add parent sk vertex).rows = sk.rows ++ vertex.rows (sk.machine.describe parent) ∧
    (add parent sk vertex).Tidy
  | .initial behaviors => ⟨rows_declare htidy hparent .initial behaviors, htidy.declare ..⟩
  | .point kind label behaviors =>
    ⟨rows_declare htidy hparent (.point kind label) behaviors, htidy.declare ..⟩
  | .final => ⟨rows_declare htidy hparent .final [], htidy.declare ..⟩
  | .state name behaviors vertices => by
    have hrows := rows_declare htidy hparent (.state name) behaviors
    have hsize : sk.machine.size < (sk.declare parent (.state name) behaviors).machine.size := by
      rw [declare, Machine.size_addVertex]
      exact Nat.lt_succ_self _
    have hname : (sk.declare parent (.state name) behaviors).machine.describe sk.machine.size =
        name :=
      Machine.describe_addVertex_size hparent
    have hinside :=
      rows_addAll sk.machine.size _ (htidy.declare parent (.state name) behaviors) hsize vertices
    rw [hrows, hname, List.append_assoc] at hinside
    exact hinside

/-- Declaring vertices one after the other appends their rows. -/
theorem rows_addAll (parent : Nat) (sk : Skeleton) (htidy : sk.Tidy)
    (hparent : parent < sk.machine.size) :
    (vertices : List VertexDoc) →
    (addAll parent sk vertices).rows =
      sk.rows ++ VertexDoc.rowsAll (sk.machine.describe parent) vertices ∧
      (addAll parent sk vertices).Tidy
  | [] => ⟨(List.append_nil _).symm, htidy⟩
  | vertex :: rest => by
    obtain ⟨hrows, htidy'⟩ := rows_add parent sk htidy hparent vertex
    have hrest := rows_addAll parent _ htidy' (lt_size_of_append hrows hparent) rest
    rw [describe_eq_of_append hrows hparent, hrows, List.append_assoc] at hrest
    exact hrest

end

end Skeleton

namespace ModelDoc

/-- The behaviors of the root are to be added to the root. -/
theorem docs_start (model : ModelDoc) :
    Skeleton.docs ⟨Machine.new model.name, model.behaviors.map fun b => (Machine.root, b)⟩
      Machine.root =
      model.behaviors := by
  simp [Skeleton.docs, List.filter_map, Function.comp_def]

/-- A model starts with its root and the behaviors of the root. -/
theorem tidy_start (model : ModelDoc) :
    Skeleton.Tidy ⟨Machine.new model.name, model.behaviors.map fun b => (Machine.root, b)⟩ where
  owners x hx := by
    obtain ⟨b, -, rfl⟩ := List.mem_map.mp hx
    exact Nat.zero_lt_one
  order := by
    change _ = [Machine.root].flatMap _
    rw [List.flatMap_singleton, docs_start]
  behaviors := rfl

/-- The vertices that a model declares have the rows of the model. -/
theorem rows_skeleton (model : ModelDoc) :
    model.skeleton.rows = model.rows ∧ model.skeleton.Tidy := by
  have htidy := model.tidy_start
  have hname : (Machine.new model.name).describe Machine.root = "ROOT" := by
    rw [Machine.describe_eq]
    rfl
  have hfirst :
      Skeleton.rows ⟨Machine.new model.name, model.behaviors.map fun b => (Machine.root, b)⟩ =
      [⟨"ROOT", .root model.name, none, model.behaviors⟩] := by
    change [Skeleton.row _ Machine.root] = _
    rw [Skeleton.row, docs_start, hname]
    rfl
  have hall := Skeleton.rows_addAll Machine.root _ htidy Nat.zero_lt_one model.vertices
  rw [hfirst] at hall
  simp only [hname] at hall
  exact hall

end ModelDoc

/-- The root comes first and has a description of its own. -/
theorem ModelDoc.root_skeleton (model : ModelDoc) :
    Machine.root < model.skeleton.machine.size ∧
      model.skeleton.machine.describe Machine.root = "ROOT" := by
  obtain ⟨hrows, -⟩ := model.rows_skeleton
  have hsize : Machine.root < model.skeleton.machine.size := by
    rw [← Skeleton.length_rows, hrows]
    exact Nat.succ_pos _
  have hrow := Skeleton.getElem?_rows hsize
  rw [hrows] at hrow
  exact ⟨hsize, (congrArg Row.description (Option.some.inj hrow)).symm⟩

/-- No string is found to be repeated exactly if there is none. -/
theorem firstRepeated_eq_none {seen strings : List String} :
    firstRepeated seen strings = none ↔ strings.Nodup ∧ ∀ s ∈ strings, s ∉ seen := by
  induction strings generalizing seen with
  | nil => simp [firstRepeated]
  | cons s rest ih =>
    rw [firstRepeated, List.nodup_cons, List.forall_mem_cons]
    by_cases hs : s ∈ seen
    · simp [hs]
    · rw [if_neg (by simpa using hs), ih]
      simp only [List.mem_cons, not_or]
      constructor
      · rintro ⟨hnodup, hrest⟩
        exact ⟨⟨fun hmem => (hrest s hmem).1 rfl, hnodup⟩, hs, fun t ht => (hrest t ht).2⟩
      · rintro ⟨⟨hmem, hnodup⟩, -, hrest⟩
        exact ⟨hnodup, fun t ht => ⟨fun heq => hmem (heq ▸ ht), hrest t ht⟩⟩

namespace BehaviorDoc

/-- The target of the behavior, if it has one, is among the descriptions. -/
def Known (b : BehaviorDoc) (descriptions : List String) : Prop :=
  ∀ t ∈ b.target, Text.trim t ∈ descriptions

/-- The behavior that is described, with the target's number among the descriptions. -/
def resolve (b : BehaviorDoc) (descriptions : List String) : Behavior :=
  b.triggers.foldl Behavior.addTrigger
    { guard := b.guard, action := b.action, target := b.target.bind fun t =>
      descriptions.idxOf? (Text.trim t) }

/-- A behavior is built exactly if its target is known. -/
theorem build_eq_ok_iff {b : BehaviorDoc} {owner : String} {descriptions : List String}
    {result : Behavior} :
    b.build owner descriptions = .ok result ↔ b.Known descriptions ∧
      b.resolve descriptions = result := by
  obtain ⟨triggers, guard, action, target⟩ := b
  cases target with
  | none =>
    simp only [build, Known, resolve, Option.bind_none, Option.not_mem_none, false_implies,
      implies_true, true_and]
    exact ⟨Except.ok.inj, congrArg _⟩
  | some t =>
    simp only [build, Known, resolve, Option.bind_some, Option.mem_def, Option.some.injEq,
      forall_eq']
    cases hfind : descriptions.idxOf? (Text.trim t) with
    | none =>
      have hnot : Text.trim t ∉ descriptions := List.idxOf?_eq_none_iff.mp hfind
      simp only [hnot, false_and, iff_false]
      exact fun h => by cases h
    | some v =>
      have hmem : Text.trim t ∈ descriptions := by
        by_contra hnot
        simp [List.idxOf?_eq_none_iff.mpr hnot] at hfind
      simp only [hmem, true_and]
      exact ⟨Except.ok.inj, congrArg _⟩

end BehaviorDoc

namespace Skeleton

/-- The behavior of a vertex that is to be added. -/
def built (descriptions : List String) (x : Nat × BehaviorDoc) : Behavior :=
  { x.2.resolve descriptions with owner := x.1 }

/-- Behaviors are added to a machine exactly if all their targets are known. -/
theorem foldlM_addBehavior {names : Nat → String} {descriptions : List String} {m result : Machine}
    (pending : List (Nat × BehaviorDoc)) :
    (pending.foldlM (fun m (owner, b) => do
        pure (m.addBehavior owner (← b.build (names owner) descriptions))) m :
          Except BuildError Machine) =
      .ok result ↔
    (∀ x ∈ pending, x.2.Known descriptions) ∧
      { m with behaviors := m.behaviors ++ pending.map (built descriptions) } = result := by
  induction pending generalizing m with
  | nil => simpa using ⟨Except.ok.inj, congrArg Except.ok⟩
  | cons x rest ih =>
    obtain ⟨owner, b⟩ := x
    rw [List.foldlM_cons, List.forall_mem_cons]
    simp only
    cases hbuild : b.build (names owner) descriptions with
    | error e =>
      have hnot : ¬ b.Known descriptions := by
        intro hknown
        have hok : b.build (names owner) descriptions = .ok (b.resolve descriptions) :=
          BehaviorDoc.build_eq_ok_iff.mpr ⟨hknown, rfl⟩
        rw [hbuild] at hok
        cases hok
      simp only [hnot, false_and, iff_false]
      exact fun h => by cases h
    | ok x =>
      obtain ⟨hknown, rfl⟩ := BehaviorDoc.build_eq_ok_iff.mp hbuild
      refine (ih (m := m.addBehavior owner (b.resolve descriptions))).trans ?_
      simp only [hknown, true_and, Machine.addBehavior, List.append_assoc, List.map_cons]
      rfl

/-- What is to be added to some vertex stands in the row of that vertex. -/
theorem forall_pending_iff {sk : Skeleton} (htidy : sk.Tidy) (good : BehaviorDoc → Prop) :
    (∀ x ∈ sk.pending, good x.2) ↔ ∀ row ∈ sk.rows, ∀ b ∈ row.behaviors, good b := by
  have hdocs {v : Nat} {b : BehaviorDoc} : b ∈ sk.docs v ↔ (v, b) ∈ sk.pending := by
    simp [docs]
  constructor
  · intro h row hrow b hb
    obtain ⟨v, -, rfl⟩ := List.mem_map.mp hrow
    exact h (v, b) (hdocs.mp hb)
  · intro h x hx
    have hrow : sk.row x.1 ∈ sk.rows :=
      List.mem_map.mpr ⟨x.1, List.mem_range.mpr (htidy.owners x hx), rfl⟩
    exact h _ hrow x.2 (hdocs.mpr hx)

/-- The descriptions of all vertices are those of the rows. -/
theorem map_description_rows (sk : Skeleton) :
    sk.rows.map Row.description = sk.machine.ids.map sk.machine.describe := by
  rw [rows, List.map_map]
  rfl

/-- A description is found under the number of its vertex. -/
theorem describe_of_idxOf? {sk : Skeleton} {s : String} {i : Nat}
    (h : (sk.rows.map Row.description).idxOf? s = some i) :
    i < sk.machine.size ∧ sk.machine.describe i = s := by
  rw [map_description_rows] at h
  obtain ⟨hlt, heq, -⟩ := List.idxOf?_eq_some_iff.mp h
  rw [List.length_map, Machine.ids, List.length_range] at hlt
  refine ⟨hlt, ?_⟩
  simpa [Machine.ids] using heq

/-- The machine with all behaviors added. -/
def finish (sk : Skeleton) : Machine :=
  { sk.machine with behaviors := sk.pending.map (built (sk.rows.map Row.description)) }

end Skeleton

/-- A model gives a machine exactly if the descriptions in its rows differ and all
targets are among them. -/
theorem ModelDoc.build_eq_ok_iff {model : ModelDoc} {m : Machine} :
    model.build = .ok m ↔ (model.rows.map Row.description).Nodup ∧
      (∀ row ∈ model.rows, ∀ b ∈ row.behaviors, b.Known (model.rows.map Row.description)) ∧
      model.skeleton.finish = m := by
  obtain ⟨hrows, htidy⟩ := model.rows_skeleton
  have hdescriptions := model.skeleton.map_description_rows
  rw [hrows] at hdescriptions
  rw [build, ← hdescriptions]
  cases hrepeated : firstRepeated [] (model.rows.map Row.description) with
  | some description =>
    have hnot : ¬ (model.rows.map Row.description).Nodup := fun hnodup => by
      simp [firstRepeated_eq_none.mpr ⟨hnodup, fun _ _ => List.not_mem_nil⟩] at hrepeated
    simp only [hnot, false_and, iff_false]
    exact fun h => by cases h
  | none =>
    have hnodup := (firstRepeated_eq_none.mp hrepeated).1
    refine Iff.trans (Skeleton.foldlM_addBehavior _) ?_
    rw [Skeleton.forall_pending_iff htidy (·.Known _), hrows, Skeleton.finish, hrows,
      htidy.behaviors, List.nil_append]
    simp only [hnodup, true_and]

end Statechart
