import Statechart.Proofs.Built
import Statechart.Proofs.Listing
import Statechart.Proofs.Renaming.Names
import Statechart.Proofs.Routines
import Statechart.Proofs.Words

/-!
# Machines without collisions

No collision is found exactly if, in each scope, whatever is given the same name is called the same.
In the machine of a document no two vertices are called the same, so its states have members and
functions of their own: a function that enters a state, leaves it or takes the transitions of a
pseudo-state shows by its ending which of these it does, and no function that every machine has ends
like that.

Other machines may have states that are called the same. They give a file all the same, with one
name for both states.
-/

namespace Statechart

namespace Naming

/-- Whatever is given the same name in the same scope is called the same. -/
def Consistent (us : List Use) : Prop :=
  ∀ a ∈ us, ∀ b ∈ us, a.category = b.category → a.name = b.name → a.owner = b.owner

/-- Whether uses are consistent does not depend on their order and on how often they occur. -/
theorem consistent_congr {us us' : List Use} (h : ∀ u, u ∈ us ↔ u ∈ us') :
    Consistent us ↔ Consistent us' := by
  simp only [Consistent, h]

/-- A use is consistent with others that do not have its name. -/
theorem consistent_cons {us : List Use} {u : Use}
    (h : us.find? (fun c => c.category == u.category && c.name == u.name) = none) :
    Consistent (u :: us) ↔ Consistent us := by
  have hother : ∀ c ∈ us, c.category = u.category → c.name ≠ u.name := by
    simpa [List.find?_eq_none] using h
  simp only [Consistent, List.forall_mem_cons, implies_true, true_and]
  constructor
  · intro hall a ha b hb
    exact (hall.2 a ha).2 b hb
  · intro hall
    exact ⟨fun b hb hcategory hname => absurd hname.symm (hother b hb hcategory.symm),
      fun a ha => ⟨fun hcategory hname => absurd hname (hother a ha hcategory), hall a ha⟩⟩

/-- Behind consistent uses no collision comes up exactly if all uses are consistent. -/
theorem collisionAfter_eq_none_iff {seen us : List Use} (hseen : Consistent seen) :
    collisionAfter seen us = none ↔ Consistent (seen ++ us) := by
  induction us generalizing seen with
  | nil => simpa [collisionAfter] using hseen
  | cons u rest ih =>
    rw [collisionAfter]
    cases hfind : seen.find? fun c => c.category == u.category && c.name == u.name with
    | none =>
      change collisionAfter (u :: seen) rest = none ↔ _
      rw [ih ((consistent_cons hfind).mpr hseen)]
      exact consistent_congr fun _ => List.perm_middle.symm.mem_iff
    | some first =>
      have hmem := List.mem_of_find?_eq_some hfind
      have hsame := List.find?_some hfind
      rw [Bool.and_eq_true, beq_iff_eq, beq_iff_eq] at hsame
      by_cases howner : first.owner = u.owner
      · obtain rfl : first = u := Use.ext hsame.1 hsame.2 howner
        simp only [if_true]
        rw [ih hseen]
        apply consistent_congr
        intro u
        rw [List.perm_middle.mem_iff, List.mem_cons]
        exact (or_iff_right_of_imp fun heq => heq ▸ List.mem_append_left rest hmem).symm
      · simp only [if_neg howner, reduceCtorEq, false_iff]
        intro hall
        exact howner (hall first (by simp [hmem]) u (by simp) hsame.1 hsame.2)

/-- The last three letters of a name, the last one first. -/
def ending (name : String) : List Char := name.toList.reverse.take 3

/-- A long enough text at the end of a name gives its last letters. -/
theorem ending_append {last : String} (h : 3 ≤ last.length) (name : String) :
    ending (name ++ last) = ending last := by
  rw [ending, String.toList_append, List.reverse_append, List.take_append_of_le_length, ending]
  rwa [List.length_reverse, String.length_toList]

end Naming

namespace Machine

open Naming

variable {m : Machine} {v w : Nat}

/-- A machine has no collision of names exactly if its uses of names are consistent. -/
theorem collision_eq_none_iff : m.collision = none ↔ Consistent m.uses :=
  collisionAfter_eq_none_iff fun _ h => absurd h List.not_mem_nil

/-- Names that are used for a listed state are used. -/
theorem mem_uses_of_mem_stateUses {u : Use} (hv : v ∈ m.states) (hu : u ∈ m.stateUses v) :
    u ∈ m.uses :=
  List.mem_append_right _ (List.mem_flatMap.mpr ⟨v, hv, hu⟩)

section NoCollision

variable (hcollision : m.collision = none)
include hcollision

/-- Without collisions, what is given the same name in the same scope is called the same. -/
theorem owner_eq_of_mem_uses {category : Category} {name name' owner owner' : String}
    (h : ⟨category, name, owner⟩ ∈ m.uses) (h' : ⟨category, name', owner'⟩ ∈ m.uses)
    (hname : name = name') :
    owner = owner' :=
  collision_eq_none_iff.mp hcollision _ h _ h' rfl hname

/-- Without collisions, different events have different members. -/
theorem event_eq_of_eventMember {e f : String} (he : e ∈ m.events) (hf : f ∈ m.events)
    (h : eventMember e = eventMember f) : e = f := by
  have hmem {e : String} (he : e ∈ m.events) :
      ⟨.eventId, eventMember e, "event `" ++ e ++ "`"⟩ ∈ m.uses := by
    simp only [uses, List.mem_append, List.mem_map]
    exact .inl (.inr ⟨e, he, rfl⟩)
  have howner := owner_eq_of_mem_uses hcollision (hmem he) (hmem hf) h
  simpa using howner

/-- Without collisions, a name that states are given depends on how they are called only. -/
theorem describe_eq_of_name {category : Category} {name : Nat → String}
    (huses : ∀ v, ⟨category, name v, m.describe v⟩ ∈ m.stateUses v) (hv : v ∈ m.states)
    (hw : w ∈ m.states) (h : name v = name w) : m.describe v = m.describe w :=
  owner_eq_of_mem_uses hcollision (mem_uses_of_mem_stateUses hv (huses v))
    (mem_uses_of_mem_stateUses hw (huses w)) h

/-- Without collisions, pseudo-states with the same function are called the same. -/
theorem describe_eq_of_pseudoFn {p q : Nat} (hp : p ∈ m.states.flatMap m.pseudoChildren)
    (hq : q ∈ m.states.flatMap m.pseudoChildren) (h : m.pseudoFn p = m.pseudoFn q) :
    m.describe p = m.describe q := by
  have hmem {p : Nat} (hp : p ∈ m.states.flatMap m.pseudoChildren) :
      ⟨.function, m.pseudoFn p, m.describe p⟩ ∈ m.uses := by
    obtain ⟨v, hv, hp⟩ := List.mem_flatMap.mp hp
    exact mem_uses_of_mem_stateUses hv (List.mem_append_right _ (List.mem_map.mpr ⟨p, hp, rfl⟩))
  exact owner_eq_of_mem_uses hcollision (hmem hp) (hmem hq) h

end NoCollision

/-- Lists of names have none in common if all names of the second list end in the same way, and none
of the first list does. -/
theorem disjoint_of_ending {xs ys : List String} (letters : List Char)
    (hxs : ∀ x ∈ xs, ending x ≠ letters) (hys : ∀ y ∈ ys, ending y = letters) : xs.Disjoint ys :=
  fun x hx hy => hxs x hx (hys x hy)

/-- Functions are different if those of each sort are: their endings tell the sorts apart. -/
theorem nodup_of_ending {vs ps : List Nat} (henters : (vs.map m.enterFn).Nodup)
    (hexits : (vs.map m.exitFn).Nodup) (hshared : (ps.map m.pseudoFn).Nodup) :
    (fixedFns ++ vs.map m.enterFn ++ vs.map m.exitFn ++ ps.map m.pseudoFn).Nodup := by
  have henter (v : Nat) : ending (m.enterFn v) = ending "_enter" := ending_append (by decide) _
  have hexit (v : Nat) : ending (m.exitFn v) = ending "_exit" := ending_append (by decide) _
  have hpseudo (p : Nat) : ending (m.pseudoFn p) = ending "_transition" :=
    ending_append (by decide) _
  have hfixed : fixedFns.Nodup := by decide
  apply ((hfixed.append henters ?_).append hexits ?_).append hshared ?_
  · apply disjoint_of_ending (ending "_enter")
    · decide
    · simp [henter]
  · apply disjoint_of_ending (ending "_exit")
    · simp only [List.forall_mem_append, List.forall_mem_map, henter]
      exact ⟨by decide, fun _ _ => by decide⟩
    · simp [hexit]
  · apply disjoint_of_ending (ending "_transition")
    · simp only [List.forall_mem_append, List.forall_mem_map, henter, hexit]
      exact ⟨⟨by decide, fun _ _ => by decide⟩, fun _ _ => by decide⟩
    · simp [hpseudo]

/-- In the machine of a document without collisions, members of events and of states are unique, and
so are the functions that every machine has, those that enter and leave states, and those of
pseudo-states. -/
theorem built_names_unique {model : ModelDoc} (hbuild : model.build = .ok m)
    (hcollision : m.collision = none) :
    (∀ e ∈ m.events, ∀ f ∈ m.events, eventMember e = eventMember f → e = f) ∧
      (∀ v ∈ m.states, ∀ w ∈ m.states, m.stateMember v = m.stateMember w → v = w) ∧
      (fixedFns ++ m.states.map m.enterFn ++ m.states.map m.exitFn ++
        (m.states.flatMap m.pseudoChildren).map m.pseudoFn).Nodup := by
  have htree := (ModelDoc.assembled_of_build hbuild).isTree
  have hdistinct := ModelDoc.distinct_of_build hbuild
  -- a state is told by any name that it alone is given
  have hstate (category : Category) (name : Nat → String)
      (huses : ∀ v, ⟨category, name v, m.describe v⟩ ∈ m.stateUses v) :
      ∀ v ∈ m.states, ∀ w ∈ m.states, name v = name w → v = w := by
    intro v hv w hw h
    exact hdistinct v (lt_size_of_mem_states htree hv) w (lt_size_of_mem_states htree hw)
      (describe_eq_of_name hcollision huses hv hw h)
  have hpseudo : ∀ p ∈ m.states.flatMap m.pseudoChildren, ∀ q ∈ m.states.flatMap m.pseudoChildren,
      m.pseudoFn p = m.pseudoFn q → p = q := by
    intro p hp q hq h
    have hlt {p : Nat} (hp : p ∈ m.states.flatMap m.pseudoChildren) : p < m.size := by
      obtain ⟨v, -, hp⟩ := List.mem_flatMap.mp hp
      exact lt_size_of_parent (mem_pseudoChildren.mp hp).1
    exact hdistinct p (hlt hp) q (hlt hq) (describe_eq_of_pseudoFn hcollision hp hq h)
  refine ⟨fun e he f hf => event_eq_of_eventMember hcollision he hf,
    hstate .stateId m.stateMember fun v => by simp [stateUses], ?_⟩
  have henters := m.nodup_states.map_on (hstate .function m.enterFn fun v => by simp [stateUses])
  have hexits := m.nodup_states.map_on (hstate .function m.exitFn fun v => by simp [stateUses])
  exact nodup_of_ending henters hexits (m.nodup_pseudo.map_on hpseudo)

/-- A door with a state inside another, a final state and a choice. -/
def doorModel : ModelDoc where
  name := "Door"
  vertices := [
    .initial [{ target := some "Closed" }],
    .state "Closed" [{ triggers := ["push"], target := some "ROOT.ChoicePoint(wind)" }] [],
    .point .choice "wind" [{ guard := some "calm", target := some "Open" },
      { target := some "Closed" }],
    .state "Open" [{ triggers := ["pull"], target := some "Closed" }] [
      .initial [{ target := some "Ajar" }],
      .state "Ajar" [{ triggers := ["push"], target := some "Open.FinalState" }] [],
      .final]]

/-- The names of the door are unique. -/
theorem door_names_unique :
    ∃ m, doorModel.build = .ok m ∧ m.collision = none ∧ m.states = [root, 2, 4, 6, 7] ∧
      m.stateMember 4 ≠ m.stateMember 7 ∧
      (fixedFns ++ m.states.map m.enterFn ++ m.states.map m.exitFn ++
        (m.states.flatMap m.pseudoChildren).map m.pseudoFn).Nodup := by
  have hfacts : doorModel.build = .ok doorModel.skeleton.finish ∧
      doorModel.skeleton.finish.collision = none ∧
      doorModel.skeleton.finish.states = [root, 2, 4, 6, 7] := by
    decide +kernel
  obtain ⟨hbuild, hcollision, hstates⟩ := hfacts
  obtain ⟨-, hmembers, hfunctions⟩ := built_names_unique hbuild hcollision
  refine ⟨_, hbuild, hcollision, hstates, fun h => ?_, hfunctions⟩
  have hsame := hmembers 4 (by simp [hstates]) 7 (by simp [hstates]) h
  exact absurd hsame (by decide)

/-! ## States that are called the same -/

/-- The functions of the root and of a named state start with the identifier for its description. -/
theorem stateName_of_holdsChildren (h : holdsChildren (m.kind v)) :
    m.stateName v = identifier (m.describe v) := by
  rw [stateName_eq, describe_eq]
  cases hkind : m.kind v with
  | root name =>
    have hroot : "root" = identifier "ROOT" := by decide
    exact hroot
  | state name => rfl
  | initial | point | final => simp [hkind, holdsChildren] at h

/-- The functions of a final state start with the identifier for the state around it. -/
theorem stateName_of_final {p : Nat} (h : m.kind v = .final) (hparent : m.parent v = some p)
    (hp : holdsChildren (m.kind p)) :
    m.describe v = m.describe p ++ ".FinalState" ∧
      m.stateName v = identifier (m.describe p) ++ "_final" := by
  constructor
  · rw [describe_eq, h, hparent]
    rfl
  · rw [stateName_eq, h, hparent, ← stateName_of_holdsChildren hp]
    rfl

/-- The listed states of a valid machine are the root, named states and final states. -/
theorem stateName_cases (htree : m.IsTree) (hvalid : m.problems = []) (hv : v ∈ m.states) :
    (m.kind v ≠ .final ∧ m.stateName v = identifier (m.describe v)) ∨
      (m.kind v = .final ∧
        ∃ place, m.describe v = place ++ ".FinalState" ∧
        m.stateName v = identifier place ++ "_final") := by
  obtain ⟨hlt, hstate⟩ := (mem_states htree hvalid).mp hv
  by_cases hfinal : m.kind v = .final
  · have hne : v ≠ root := by
      intro hroot
      obtain ⟨name, hname⟩ := htree.rootKind
      rw [hroot, hname] at hfinal
      cases hfinal
    obtain ⟨p, hp⟩ := htree.hasParent v hne hlt
    exact .inr ⟨hfinal, m.describe p,
      stateName_of_final hfinal hp (holdsChildren_of_parent hvalid hp)⟩
  · exact .inl ⟨hfinal, stateName_of_holdsChildren (holdsChildren_of_isState hstate hfinal)⟩

/-- A named state that is called like a final state has a name of its own. -/
theorem identifier_ne_final (place place' : String) :
    pascalCase (identifier (place ++ ".FinalState")) ≠
      pascalCase (identifier place' ++ "_final") := by
  have hwords : words (place ++ ".FinalState") = words place ++ words "FinalState" :=
    words_eq_append (c := '.') (by decide) (by simp [String.toList_append])
  have hlast : words "FinalState" = ["final".toList, "state".toList] := by decide
  obtain ⟨front, hfront⟩ :=
    exists_join_eq_append (spelled (words place ++ ["final".toList])) "state".toList
  have hstate : (identifier (place ++ ".FinalState")).toList =
      (front ++ "sta".toList) ++ ['t', 'e'] := by
    rw [toList_identifier, hwords, hlast, ← List.singleton_append, ← List.append_assoc,
      spelled_append (by simp), hfront, List.append_assoc]
    rfl
  have hfinal : (identifier place' ++ "_final").toList =
      ((identifier place').toList ++ "_fin".toList) ++ ['a', 'l'] := by
    rw [String.toList_append, List.append_assoc]
    rfl
  intro h
  have hletter := congrArg (fun s => s.toList.getLast?) h
  simp only [getLast?_pascalCase hstate (by decide) (by decide),
    getLast?_pascalCase hfinal (by decide) (by decide)] at hletter
  exact absurd hletter (by decide)

section Valid

variable (htree : m.IsTree) (hvalid : m.problems = []) (hv : v ∈ m.states) (hw : w ∈ m.states)
include htree hvalid hv hw

/-- States that are called the same have the same name if both are final or none is. -/
theorem stateName_eq_of_describe (hdesc : m.describe v = m.describe w)
    (hkind : m.kind v = .final ↔ m.kind w = .final) :
    m.stateName v = m.stateName w := by
  cases stateName_cases htree hvalid hv with
  | inl hnamed =>
    have hother := (stateName_cases htree hvalid hw).resolve_right fun hw =>
      hnamed.1 (hkind.mpr hw.1)
    rw [hnamed.2, hother.2, hdesc]
  | inr hfinal =>
    obtain ⟨place, hplace, hname⟩ := hfinal.2
    have hother := (stateName_cases htree hvalid hw).resolve_left fun hw => hw.1 (hkind.mp hfinal.1)
    obtain ⟨place', hplace', hname'⟩ := hother.2
    rw [hplace, hplace', String.append_left_inj] at hdesc
    rw [hname, hname', hdesc]

/-- States that are called the same have different members if only one is final. -/
theorem stateMember_ne_of_describe (hdesc : m.describe v = m.describe w)
    (hnamed : m.kind v ≠ .final) (hfinal : m.kind w = .final) :
    m.stateMember v ≠ m.stateMember w := by
  have hname := (stateName_cases htree hvalid hv).resolve_right fun h => hnamed h.1
  obtain ⟨place, hplace, hother⟩ :=
    ((stateName_cases htree hvalid hw).resolve_left fun h => h.1 hfinal).2
  rw [stateMember, stateMember, hname.2, hother, hdesc, hplace]
  exact identifier_ne_final place place

/-- Without collisions, states with the same member are called the same, and both are
final or none is. -/
theorem describe_eq_of_stateMember (hcollision : m.collision = none)
    (h : m.stateMember v = m.stateMember w) :
    m.describe v = m.describe w ∧ (m.kind v = .final ↔ m.kind w = .final) := by
  have huses (v : Nat) : ⟨.stateId, m.stateMember v, m.describe v⟩ ∈ m.stateUses v := by
    simp [stateUses]
  have hdesc := describe_eq_of_name hcollision huses hv hw h
  refine ⟨hdesc, ?_⟩
  by_cases hfinal : m.kind v = .final
  · have hother : m.kind w = .final := by
      by_contra hnamed
      exact stateMember_ne_of_describe htree hvalid hw hv hdesc.symm hnamed hfinal h.symm
    simp [hfinal, hother]
  · have hother : m.kind w ≠ .final :=
      fun hw' => stateMember_ne_of_describe htree hvalid hv hw hdesc hfinal hw' h
    simp [hfinal, hother]

end Valid

/-- A machine that gives a file is valid and has no collision of names. -/
theorem valid_of_generate {config : Config} {text : String} (h : m.generate config = .ok text) :
    m.problems = [] ∧ m.collision = none := by
  unfold generate at h
  split at h
  · next hvalid _ =>
    refine ⟨hvalid, ?_⟩
    rw [generateWith] at h
    split at h
    · cases h
    · next hcollision => exact hcollision
  · cases h
  · cases h

/-- In a machine that gives a file, two states have the same member, or the same function to enter
them, exactly if they are called the same and both are final or none is. -/
theorem generated_states_agree_iff {config : Config} {text : String} (hm : m.Assembled)
    (htext : m.generate config = .ok text) (hv : v ∈ m.states) (hw : w ∈ m.states) :
    (m.stateMember v = m.stateMember w ↔ m.describe v = m.describe w ∧
      (m.kind v = .final ↔ m.kind w = .final)) ∧
      (m.enterFn v = m.enterFn w ↔ m.describe v = m.describe w ∧
        (m.kind v = .final ↔ m.kind w = .final)) := by
  obtain ⟨hvalid, hcollision⟩ := valid_of_generate htext
  have hname (h : m.describe v = m.describe w ∧ (m.kind v = .final ↔ m.kind w = .final)) :
      m.stateName v = m.stateName w := stateName_eq_of_describe hm.isTree hvalid hv hw h.1 h.2
  have henter : m.enterFn v = m.enterFn w ↔ m.stateName v = m.stateName w :=
    String.append_left_inj "_enter"
  have hmember := describe_eq_of_stateMember hm.isTree hvalid hv hw hcollision
  constructor
  · exact ⟨hmember, fun h => congrArg pascalCase (hname h)⟩
  · rw [henter]
    exact ⟨fun h => hmember (congrArg pascalCase h), hname⟩

/-- A machine with a state that is called like the final state beside it. -/
def mimic : Machine :=
  (new "Mimic").addVertex root .initial
    |>.addVertex root (.state "ROOT.FinalState")
    |>.addVertex root .final
    |>.addBehavior 1 { target := some 2 }

/-- The two states are called the same, but only one is final, so their names differ. -/
theorem mimic_states_differ :
    (∃ text, mimic.generate {} = .ok text) ∧ mimic.describe 2 = mimic.describe 3 ∧
      mimic.stateMember 2 ≠ mimic.stateMember 3 ∧ mimic.enterFn 2 ≠ mimic.enterFn 3 := by
  have hm : mimic.Assembled :=
    (Assembled.new "Mimic").addVertex (by decide) (by simp)
      |>.addVertex (by decide) (by simp)
      |>.addVertex (by decide) (by simp)
      |>.addBehavior (by decide)
  obtain ⟨text, htext⟩ : ∃ text, mimic.generate {} = .ok text := exists_eq_ok (by decide +kernel)
  have hkind : ¬ (mimic.kind 2 = .final ↔ mimic.kind 3 = .final) := by decide
  obtain ⟨hmember, henter⟩ :=
    generated_states_agree_iff (v := 2) (w := 3) hm htext (by decide +kernel) (by decide +kernel)
  exact ⟨⟨text,
    htext⟩, by decide +kernel, fun h => hkind (hmember.mp h).2, fun h => hkind (henter.mp h).2⟩

/-- A machine with two states of the same name in different states. -/
def twins : Machine :=
  (new "Twins").addVertex root .initial
    |>.addVertex root (.state "On")
    |>.addVertex root (.state "Off")
    |>.addVertex 2 (.state "Idle")
    |>.addVertex 3 (.state "Idle")
    |>.addBehavior 1 { target := some 2 }

/-- The machine gives a file, although two of its states have the same member and the same function
to enter them. -/
theorem twins_states_agree :
    twins.Assembled ∧ (∃ text, twins.generate {} = .ok text) ∧ 4 ∈ twins.states ∧ 5 ∈ twins.states ∧
      twins.stateMember 4 = twins.stateMember 5 ∧ twins.enterFn 4 = twins.enterFn 5 := by
  have hm : twins.Assembled :=
    (Assembled.new "Twins").addVertex (by decide) (by simp)
      |>.addVertex (by decide) (by simp)
      |>.addVertex (by decide) (by simp)
      |>.addVertex (by decide) (by simp)
      |>.addVertex (by decide) (by simp)
      |>.addBehavior (by decide)
  have htext : ∃ text, twins.generate {} = .ok text := exists_eq_ok (by decide +kernel)
  exact ⟨hm, htext, by decide +kernel⟩

end Machine

end Statechart
