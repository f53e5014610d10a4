import Statechart.Proofs.Rows

/-!
# Models that give no machine

A model gives no machine if two of its vertices have the same description, and otherwise if some
transition leads to a description that no vertex has. The error names what comes first in the order
of the document: the first description that occurred before, or the first behavior whose target is
not known.
-/

namespace Statechart

/-- The first string of the list that occurs before. -/
def FirstRepeat (strings : List String) (s : String) : Prop :=
  ∃ before after, strings = before ++ s :: after ∧ before.Nodup ∧ s ∈ before

/-- The first string of the list that occurs before or was seen already. -/
def FirstRepeatAfter (seen strings : List String) (s : String) : Prop :=
  ∃ before after, strings = before ++ s :: after ∧ before.Nodup ∧ (∀ t ∈ before, t ∉ seen) ∧
    (s ∈ before ∨ s ∈ seen)

/-- The first repeated string is the first string, if it was seen already, or else comes behind
it. -/
theorem firstRepeatAfter_cons {seen rest : List String} {s t : String} :
    FirstRepeatAfter seen (t :: rest) s ↔ (t ∈ seen ∧ t = s) ∨
      (t ∉ seen ∧ FirstRepeatAfter (t :: seen) rest s) := by
  constructor
  · rintro ⟨before, after, heq, hnodup, hseen, hs⟩
    cases before with
    | nil =>
      obtain ⟨rfl, rfl⟩ := List.cons.inj heq
      exact .inl ⟨hs.resolve_left List.not_mem_nil, rfl⟩
    | cons u before =>
      obtain ⟨rfl, rfl⟩ := List.cons.inj heq
      obtain ⟨hmem, hnodup⟩ := List.nodup_cons.mp hnodup
      obtain ⟨ht, hseen⟩ := List.forall_mem_cons.mp hseen
      refine .inr ⟨ht, before, after, rfl, hnodup, fun w hw => ?_, ?_⟩
      · rw [List.mem_cons, not_or]
        exact ⟨ne_of_mem_of_not_mem hw hmem, hseen w hw⟩
      · rw [List.mem_cons, or_assoc] at hs
        rw [List.mem_cons]
        exact or_left_comm.mp hs
  · rintro (⟨ht, rfl⟩ | ⟨ht, before, after, rfl, hnodup, hseen, hs⟩)
    · exact ⟨[], rest, rfl, .nil, by simp, .inr ht⟩
    · refine ⟨t :: before, after, rfl, ?_, ?_, ?_⟩
      · exact List.nodup_cons.mpr ⟨fun hmem => hseen t hmem List.mem_cons_self, hnodup⟩
      · exact List.forall_mem_cons.mpr ⟨ht, fun u hu hmem =>
          hseen u hu (List.mem_cons_of_mem _ hmem)⟩
      · rw [List.mem_cons] at hs
        rw [List.mem_cons, or_assoc]
        exact or_left_comm.mp hs

/-- The string that is found to be repeated is the first one. -/
theorem firstRepeated_eq_some {seen strings : List String} {s : String} :
    firstRepeated seen strings = some s ↔ FirstRepeatAfter seen strings s := by
  induction strings generalizing seen with
  | nil => simp [firstRepeated, FirstRepeatAfter]
  | cons t rest ih =>
    rw [firstRepeated, firstRepeatAfter_cons, ← ih]
    by_cases ht : t ∈ seen
    · simp [ht]
    · simp [ht]

/-- Of all strings, the first one that occurs before is found. -/
theorem firstRepeated_eq_some_iff {strings : List String} {s : String} :
    firstRepeated [] strings = some s ↔ FirstRepeat strings s := by
  simp [firstRepeated_eq_some, FirstRepeatAfter, FirstRepeat]

namespace BehaviorDoc

variable {b : BehaviorDoc} {owner target : String} {descriptions : List String} {e : BuildError}

/-- The behavior leads to the target, which is not among the descriptions. -/
def Misses (b : BehaviorDoc) (target : String) (descriptions : List String) : Prop :=
  b.target = some target ∧ Text.trim target ∉ descriptions

/-- The target of a behavior that misses it is not known. -/
theorem Misses.not_known (h : b.Misses target descriptions) : ¬ b.Known descriptions :=
  fun hknown => h.2 (hknown target h.1)

/-- A behavior is refused exactly if it misses its target. -/
theorem build_eq_error_iff :
    b.build owner descriptions = .error e ↔
      ∃ target, b.Misses target descriptions ∧ .unknownTarget owner target = e := by
  obtain ⟨triggers, guard, action, target⟩ := b
  cases target with
  | none =>
    simp only [build, Misses, reduceCtorEq, false_and, exists_false, iff_false]
    exact fun h => by cases h
  | some t =>
    simp only [build, Misses, Option.some.injEq]
    cases hfind : descriptions.idxOf? (Text.trim t) with
    | none =>
      have hnot : Text.trim t ∉ descriptions := List.idxOf?_eq_none_iff.mp hfind
      constructor
      · intro h
        exact ⟨t, ⟨rfl, hnot⟩, Except.error.inj h⟩
      · rintro ⟨_, ⟨rfl, -⟩, rfl⟩
        rfl
    | some v =>
      constructor
      · intro h
        cases h
      · rintro ⟨_, ⟨rfl, hnot⟩, -⟩
        simp [List.idxOf?_eq_none_iff.mpr hnot] at hfind

end BehaviorDoc

/-- The first of the behaviors, each with its owner, that misses its target. -/
def FirstMiss (behaviors : List (String × BehaviorDoc)) (descriptions : List String)
    (owner target : String) :
    Prop :=
  ∃ before b after, behaviors = before ++ (owner, b) :: after ∧
    (∀ x ∈ before, x.2.Known descriptions) ∧ b.Misses target descriptions

/-- The first behavior to miss its target is the first one, or comes behind it. -/
theorem firstMiss_cons {x : String × BehaviorDoc} {rest : List (String × BehaviorDoc)}
    {descriptions : List String} {owner target : String} :
    FirstMiss (x :: rest) descriptions owner target ↔
      (x.1 = owner ∧ x.2.Misses target descriptions) ∨
        (x.2.Known descriptions ∧ FirstMiss rest descriptions owner target) := by
  constructor
  · rintro ⟨before, b, after, heq, hknown, hmisses⟩
    cases before with
    | nil =>
      obtain ⟨rfl, -⟩ := List.cons.inj heq
      exact .inl ⟨rfl, hmisses⟩
    | cons y before =>
      obtain ⟨rfl, rfl⟩ := List.cons.inj heq
      rw [List.forall_mem_cons] at hknown
      exact .inr ⟨hknown.1, before, b, after, rfl, hknown.2, hmisses⟩
  · rintro (⟨rfl, hmisses⟩ | ⟨hknown, before, b, after, rfl, hbefore, hmisses⟩)
    · exact ⟨[], x.2, rest, rfl, by simp, hmisses⟩
    · exact ⟨x :: before, b, after, rfl, List.forall_mem_cons.mpr ⟨hknown, hbefore⟩, hmisses⟩

/-- Adding behaviors to a machine fails exactly at the first one that misses its target. -/
theorem Skeleton.foldlM_addBehavior_eq_error {names : Nat → String} {descriptions : List String}
    {m : Machine} {e : BuildError} (pending : List (Nat × BehaviorDoc)) :
    (pending.foldlM (fun m x => do
        pure (m.addBehavior x.1 (← x.2.build (names x.1) descriptions))) m :
          Except BuildError Machine) = .error e ↔
    ∃ owner target, FirstMiss (pending.map fun x => (names x.1, x.2)) descriptions owner target ∧
      .unknownTarget owner target = e := by
  induction pending generalizing m with
  | nil =>
    simp only [List.foldlM_nil, List.map_nil, FirstMiss, List.nil_eq, List.append_eq_nil_iff,
      reduceCtorEq, and_false, false_and, exists_false, iff_false]
    exact fun h => by cases h
  | cons x rest ih =>
    rw [List.foldlM_cons, List.map_cons]
    simp only [firstMiss_cons]
    cases hbuild : x.2.build (names x.1) descriptions with
    | error e' =>
      obtain ⟨target, hmisses, rfl⟩ := BehaviorDoc.build_eq_error_iff.mp hbuild
      constructor
      · intro h
        exact ⟨names x.1, target, .inl ⟨rfl, hmisses⟩, Except.error.inj h⟩
      · rintro ⟨_, target', ⟨rfl, hmisses'⟩ | ⟨hknown, -⟩, rfl⟩
        · have htarget : target = target' := Option.some.inj (hmisses.1.symm.trans hmisses'.1)
          rw [htarget]
          rfl
        · exact absurd hknown hmisses.not_known
    | ok b =>
      obtain ⟨hknown, rfl⟩ := BehaviorDoc.build_eq_ok_iff.mp hbuild
      refine (ih (m := m.addBehavior x.1 (x.2.resolve descriptions))).trans ?_
      refine exists_congr fun owner => exists_congr fun target => and_congr_left fun _ => ?_
      constructor
      · exact fun hrest => .inr ⟨hknown, hrest⟩
      · rintro (⟨-, hmisses⟩ | ⟨-, hrest⟩)
        · exact absurd hknown hmisses.not_known
        · exact hrest

namespace ModelDoc

variable {model : ModelDoc}

/-- The descriptions of the vertices in the order of the document, the root's first. -/
def descriptions (model : ModelDoc) : List String := model.rows.map Row.description

/-- The behaviors in the order of the document, the root's first, each with the
description of its owner. -/
def ownedBehaviors (model : ModelDoc) : List (String × BehaviorDoc) :=
  model.rows.flatMap fun row => row.behaviors.map (Prod.mk row.description)

/-- The descriptions of a model are those of the vertices that it declares. -/
theorem describe_skeleton (model : ModelDoc) :
    model.skeleton.machine.ids.map model.skeleton.machine.describe = model.descriptions := by
  rw [← Skeleton.map_description_rows, model.rows_skeleton.1, descriptions]

/-- The behaviors of a model are to be added in the order of the document. -/
theorem pending_skeleton (model : ModelDoc) :
    model.skeleton.pending.map (fun x => (model.skeleton.machine.describe x.1, x.2)) =
      model.ownedBehaviors := by
  obtain ⟨hrows, htidy⟩ := model.rows_skeleton
  rw [htidy.order, List.map_flatMap, ownedBehaviors, ← hrows, Skeleton.rows, List.flatMap_map]
  refine List.flatMap_congr fun v _ => ?_
  rw [List.map_map]
  rfl

/-- Without a repeated description, building a model is adding its behaviors one after the other. -/
theorem build_eq_of_firstRepeated_eq_none (h : firstRepeated [] model.descriptions = none) :
    model.build = model.skeleton.pending.foldlM (fun m x => do
      pure (m.addBehavior x.1
        (← x.2.build (model.skeleton.machine.describe x.1) model.descriptions)))
        model.skeleton.machine := by
  rw [build, model.describe_skeleton, h]

/-- A model is refused for a description exactly if this is the first one that is repeated. -/
theorem build_eq_duplicateVertex_iff {s : String} :
    model.build = .error (.duplicateVertex s) ↔ FirstRepeat model.descriptions s := by
  rw [← firstRepeated_eq_some_iff]
  cases hrepeated : firstRepeated [] model.descriptions with
  | some t =>
    rw [build, model.describe_skeleton, hrepeated, Option.some.injEq]
    constructor
    · intro h
      exact BuildError.duplicateVertex.inj (Except.error.inj h)
    · rintro rfl
      rfl
  | none =>
    rw [build_eq_of_firstRepeated_eq_none hrepeated, Skeleton.foldlM_addBehavior_eq_error]
    simp

/-- A model without repeated descriptions is refused for a target exactly if the first behavior that
misses its target leads there. -/
theorem build_eq_unknownTarget_iff {owner target : String} :
    model.build = .error (.unknownTarget owner target) ↔
      model.descriptions.Nodup ∧
      FirstMiss model.ownedBehaviors model.descriptions owner target := by
  cases hrepeated : firstRepeated [] model.descriptions with
  | some t =>
    have hnot : ¬ model.descriptions.Nodup := fun hnodup => by
      simp [firstRepeated_eq_none.mpr ⟨hnodup, fun _ _ => List.not_mem_nil⟩] at hrepeated
    rw [build, model.describe_skeleton, hrepeated]
    simp only [hnot, false_and, iff_false]
    exact fun h => by cases h
  | none =>
    have hnodup := (firstRepeated_eq_none.mp hrepeated).1
    rw [build_eq_of_firstRepeated_eq_none hrepeated, Skeleton.foldlM_addBehavior_eq_error,
      model.pending_skeleton]
    simp [hnodup]

end ModelDoc

end Statechart
