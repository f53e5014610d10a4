import Mathlib.Data.List.Forall2
import Statechart.Proofs.Built
import Statechart.Proofs.Rejections
import Statechart.Proofs.Trimming

/-!
# Targets by description

A transition names its target by a description, and white space around it does not count. It does
count in the descriptions of vertices, though, so a vertex is found by its own description only if
this has no white space on its sides. A target that is spelled like any other vertex leads to the
vertex with the trimmed description, or nowhere.
-/

namespace Statechart

namespace Text

/-- Trimming leaves exactly the strings alone that are trimmed. -/
theorem trim_eq_self_iff {s : String} : trim s = s ↔ IsTrimmed isWhite s.toList := by
  rw [← String.toList_inj, trim, String.toList_ofList, trimChars, trimBy_eq_self_iff]

end Text

open Text

/-- The description of a point goes on with a dot behind that of its place, and
ends with a bracket. -/
theorem Kind.exists_describeIn_point (place : String) (kind : PointKind) (label : String) :
    ∃ middle, (Kind.describeIn place (.point kind label)).toList =
      place.toList ++ ('.' :: middle ++ [')']) := by
  have hpoint (front : String) : (place ++ ("." ++ front ++ label ++ ")")).toList =
      place.toList ++ ('.' :: (front.toList ++ label.toList) ++ [')']) := by simp
  cases kind with
  | choice => exact ⟨_, hpoint "ChoicePoint("⟩
  | entry => exact ⟨_, hpoint "EntryPoint("⟩
  | exit => exact ⟨_, hpoint "ExitPoint("⟩

namespace Machine

variable {m : Machine} {v : Nat}

/-- Whether names leave no white space on the sides of the description of a vertex: that of a state
on neither side, that of the state around any other vertex not in front. -/
def Neat (m : Machine) (v : Nat) : Prop :=
  match m.kind v with
  | .root _ => True
  | .state name => IsTrimmed isWhite name.toList
  | _ => ∀ p, m.parent v = some p → ∀ c ∈ (m.describe p).toList.head?, isWhite c = false

/-- A description has no white space on its sides exactly if the vertex is neat. -/
theorem trim_describe_eq_self_iff (m : Machine) (v : Nat) :
    trim (m.describe v) = m.describe v ↔ m.Neat v := by
  have hplaced {text : String} (middle : List Char) {last : Char} (hlast : isWhite last = false)
      (htext : text.toList = ((m.parent v).elim "?" m.describe).toList ++
        ('.' :: middle ++ [last])) :
      IsTrimmed isWhite text.toList ↔
        ∀ p, m.parent v = some p → ∀ c ∈ (m.describe p).toList.head?, isWhite c = false := by
    have hend : IsTrimmed isWhite ('.' :: middle ++ [last]) := by
      constructor
      · rintro c ⟨⟩
        decide
      · intro c hc
        rw [List.getLast?_concat] at hc
        obtain rfl := Option.some.inj hc
        exact hlast
    rw [htext, isTrimmed_append hend (by simp)]
    cases m.parent v with
    | none => simpa using (by decide : isWhite '?' = false)
    | some p => simp
  rw [trim_eq_self_iff, describe_eq, Neat]
  cases m.kind v with
  | root name => exact iff_of_true (trim_eq_self_iff.mp (by decide : trim "ROOT" = "ROOT")) trivial
  | state name => exact Iff.rfl
  | initial =>
    exact hplaced "InitialStat".toList (by decide : isWhite 'e' = false) String.toList_append
  | final => exact hplaced "FinalStat".toList (by decide : isWhite 'e' = false) String.toList_append
  | point kind label =>
    obtain ⟨middle, hmiddle⟩ :=
      Kind.exists_describeIn_point ((m.parent v).elim "?" m.describe) kind label
    exact hplaced middle (by decide) hmiddle

end Machine

namespace ModelDoc

variable {model : ModelDoc} {m : Machine} {w : Nat} {row : Row}

/-- The descriptions in a model are those of the machine that it gives. -/
theorem descriptions_of_build (h : model.build = .ok m) :
    model.descriptions = m.ids.map m.describe := by
  obtain ⟨-, -, rfl⟩ := build_eq_ok_iff.mp h
  rw [← model.describe_skeleton]
  exact List.map_congr_left fun v _ => (Machine.describe_behaviors ..).symm

/-- The behaviors of a vertex are those in its row. -/
theorem behaviorsOf_of_row (h : model.build = .ok m) (hrow : model.rows[w]? = some row) :
    m.behaviorsOf w = row.behaviors.map fun b => Skeleton.built model.descriptions (w, b) := by
  obtain ⟨-, -, rfl⟩ := build_eq_ok_iff.mp h
  obtain ⟨hrows, -⟩ := model.rows_skeleton
  have hw : w < model.skeleton.machine.size := by
    rw [← Skeleton.length_rows, hrows]
    exact (List.getElem?_eq_some_iff.mp hrow).1
  obtain rfl : model.skeleton.row w = row := by
    rw [← hrows, Skeleton.getElem?_rows hw] at hrow
    exact Option.some.inj hrow
  rw [Skeleton.behaviorsOf_finish, hrows]
  rfl

/-- The target of a behavior is the vertex whose description is the trimmed target in the
document. -/
theorem exists_target_of_build (h : model.build = .ok m) {b : BehaviorDoc} {t : String}
    (hrow : model.rows[w]? = some row) (hb : b ∈ row.behaviors) (ht : b.target = some t) :
    ∃ u < m.size, (Skeleton.built model.descriptions (w, b)).target = some u ∧
      m.describe u = trim t := by
  obtain ⟨-, hknown, -⟩ := build_eq_ok_iff.mp h
  have hmem : trim t ∈ model.descriptions := hknown row (List.mem_of_getElem? hrow) b hb t ht
  obtain ⟨u, hu⟩ := Option.isSome_iff_exists.mp (List.isSome_idxOf?.mpr hmem)
  have htarget : (Skeleton.built model.descriptions (w, b)).target = some u := by
    rw [Skeleton.built, BehaviorDoc.resolve, Behavior.addTriggers_target, ht]
    exact hu
  rw [descriptions_of_build h] at hu
  obtain ⟨hlt, heq, -⟩ := List.idxOf?_eq_some_iff.mp hu
  rw [List.length_map, Machine.ids, List.length_range] at hlt
  exact ⟨u, hlt, htarget, by simpa [Machine.ids] using heq⟩

/-- A target is looked up without the white space around it, but the descriptions of vertices are
not trimmed. So a behavior that names its target by the description of a vertex leads to this
vertex exactly if the description is trimmed, and else to another vertex that has the trimmed one
for its description. Where there is none, the model is refused, though the target is the
description of a vertex. -/
theorem targets_are_trimmed_descriptions (model : ModelDoc) :
    (∀ m, model.build = .ok m → ∀ w row, model.rows[w]? = some row →
      List.Forall₂ (fun (doc : BehaviorDoc) (b : Behavior) => ∀ v < m.size,
        doc.target = some (m.describe v) →
          (m.Neat v → b.target = some v) ∧
          (¬ m.Neat v → ∃ u < m.size, u ≠ v ∧ m.describe u = trim (m.describe v) ∧
            b.target = some u))
        row.behaviors (m.behaviorsOf w)) ∧
    ∀ t ∈ model.descriptions,
      (trim t = t → ∀ owner, model.build ≠ .error (.unknownTarget owner t)) ∧
      ∀ before owner b after, model.ownedBehaviors = before ++ (owner, b) :: after →
        b.target = some t →
        model.descriptions.Nodup → (∀ x ∈ before, x.2.Known model.descriptions) →
        (model.build = .error (.unknownTarget owner t) ↔ trim t ∉ model.descriptions) := by
  refine ⟨fun m hbuild w row hrow => ?_, fun t ht => ⟨fun htrim owner herror => ?_, ?_⟩⟩
  · rw [behaviorsOf_of_row hbuild hrow, List.forall₂_map_right_iff, List.forall₂_same]
    intro doc hdoc v hv htarget
    obtain ⟨u, hu, hfound, hdescribe⟩ := exists_target_of_build hbuild hrow hdoc htarget
    rw [← Machine.trim_describe_eq_self_iff]
    refine ⟨fun hneat => ?_, fun huntidy => ⟨u, hu, fun heq => huntidy ?_, hdescribe, hfound⟩⟩
    · rw [hfound, distinct_of_build hbuild u hu v hv (hdescribe.trans hneat)]
    · rw [← hdescribe, heq]
  · obtain ⟨-, -, -, -, -, -, -, hmiss⟩ := build_eq_unknownTarget_iff.mp herror
    exact hmiss (htrim.symm ▸ ht)
  · intro before owner b after hsplit htarget hnodup hbefore
    constructor
    · intro herror
      obtain ⟨-, -, -, -, -, -, -, hmiss⟩ := build_eq_unknownTarget_iff.mp herror
      exact hmiss
    · intro hmiss
      exact build_eq_unknownTarget_iff.mpr ⟨hnodup, before, b, after, hsplit, hbefore,
        htarget, hmiss⟩

/-- Two states whose names differ by a blank, and transitions that name both. -/
def annexModel : ModelDoc where
  name := "Annex"
  vertices := [
    .initial [{ target := some " A" }],
    .state " A" [{ triggers := ["go"], target := some "A" }] [],
    .state "A" [] []]

/-- The machine of the annex. -/
def annex : Machine :=
  (Machine.new "Annex").addVertex Machine.root .initial
    |>.addVertex Machine.root (.state " A")
    |>.addVertex Machine.root (.state "A")
    |>.addBehavior 1 { target := some 3 }
    |>.addBehavior 2 { triggers := ["go"], target := some 3 }

/-- The first transition names the state with the blank, and leads to the other one. Without the
other one, the model is refused. -/
theorem annex_target_missed :
    (annexModel.build = .ok annex ∧ annex.describe 2 = " A" ∧ annex.describe 3 = "A" ∧
      (annexModel.rows.map fun row => row.behaviors.map BehaviorDoc.target) =
        [[], [some " A"], [some "A"], []] ∧
      (annex.ids.map fun v => (annex.behaviorsOf v).map Behavior.target) =
        [[], [some 3], [some 3], []]) ∧
    ({ annexModel with vertices := [.initial [{ target := some " A" }], .state " A" [] []] } :
    ModelDoc).build =
      .error (.unknownTarget "ROOT.InitialState" " A") := by
  decide +kernel

/-- Of the two states, the one with the blank cannot be named, and the other one can. -/
theorem annex_targets_are_trimmed_descriptions :
    annexModel.build = .ok annex ∧
      (¬ annex.Neat 2 ∧ ∃ b ∈ annex.behaviorsOf 1, ∃ u ≠ 2, annex.describe u = "A" ∧
        b.target = some u) ∧
      annex.Neat 3 ∧ ∃ b ∈ annex.behaviorsOf 2, b.target = some 3 := by
  have hbuild : annexModel.build = .ok annex := by decide +kernel
  have huntidy : ¬ annex.Neat 2 := by
    rw [← Machine.trim_describe_eq_self_iff]
    decide +kernel
  have hneat : annex.Neat 3 := by
    rw [← Machine.trim_describe_eq_self_iff]
    decide +kernel
  have hrows := (targets_are_trimmed_descriptions annexModel).1 annex hbuild
  obtain ⟨b, rest, hb, -, hbehaviors⟩ := List.forall₂_cons_left_iff.mp (hrows 1 _ rfl)
  obtain ⟨b', rest', hb', -, hbehaviors'⟩ := List.forall₂_cons_left_iff.mp (hrows 2 _ rfl)
  obtain ⟨u, -, hu, hdescribe, htarget⟩ := (hb 2 (by decide) (by decide +kernel)).2 huntidy
  refine ⟨hbuild, ⟨huntidy, b, ?_, u, hu, ?_, htarget⟩, hneat, b', ?_, ?_⟩
  · rw [hbehaviors]
    exact List.mem_cons_self
  · rw [hdescribe]
    decide +kernel
  · rw [hbehaviors']
    exact List.mem_cons_self
  · exact (hb' 3 (by decide) (by decide +kernel)).1 hneat

end ModelDoc

end Statechart
