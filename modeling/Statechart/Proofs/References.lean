import Statechart.Proofs.Contents
import Statechart.Proofs.Discipline
import Statechart.Proofs.Listing
import Statechart.Proofs.Slots
import Statechart.Proofs.Sorting

/-!
# What generated code refers to

Generated code calls the functions of states and of shared pseudo-states, and mentions members of
three enumerations: handlers, state ids and event ids. All of them are declared by walking down the
list of states, while the code that refers to them follows the paths of transitions and looks for
ancestors. In a valid machine the two agree: everything that is referred to is declared, and
declared once. The walk passes over states that were put in themselves, and so does the code: a
transition from the root to such a state has no path.
-/

namespace Statechart

/-- Something that generated code refers to by name. -/
inductive Reference where
  /-- A function that is called. -/
  | function (r : Routine)
  /-- A member of the enumeration of handlers. -/
  | handler (r : Routine)
  /-- A member of the enumeration of states. -/
  | stateId (v : Nat)
  /-- A member of the enumeration of events, which is also the index of a slot. -/
  | eventId (event : String)
deriving DecidableEq, Repr

namespace Stmt

/-- What a statement refers to. -/
def references : Stmt → List Reference
  | enter v => [.function (.enter v)]
  | exit v => [.function (.exit v)]
  | exitUpTo v | setExit v | block (.movedOn v) _ _ => [.handler (.exit v)]
  | setHandler event v | restoreHandler event (some v) =>
    [.eventId event, .handler (.event v event)]
  | restoreHandler event none => [.eventId event]
  | passTo v event => [.handler (.event v event)]
  | settle v => [.stateId v]
  | proceed p => [.function (.shared p)]
  | _ => []

/-- The routine that a statement declares the function of. -/
def routine? : Stmt → Option Routine
  | block (.routine r) _ _ => some r
  | _ => none

/-- Fixed parts of a file refer to nothing but in lines of text. -/
theorem references_of_isFixed {stmt : Stmt} (h : stmt.isFixed) : stmt.references = [] := by
  unfold isFixed at h
  split at h
  case h_10 => cases h
  all_goals rfl

/-- Neutral statements refer to nothing. -/
theorem references_of_isNeutral {stmt : Stmt} (h : stmt.isNeutral) : stmt.references = [] := by
  unfold isNeutral at h
  split at h
  case h_10 => cases h
  all_goals rfl

/-- Fixed parts of a file declare no function of a routine. -/
theorem routine?_of_isFixed {stmt : Stmt} (h : stmt.isFixed) : stmt.routine? = none := by
  unfold isFixed at h
  split at h
  case h_10 => cases h
  all_goals rfl

/-- Neither does emitted code. -/
theorem routine?_of_emits {stmt : Stmt} {c : Compiler} {leads : Behavior → Prop}
    {holds : Nat → Prop} (h : c.Emits leads holds stmt) : stmt.routine? = none := by
  cases h with
  | neutral hneutral =>
    unfold isNeutral at hneutral
    split at hneutral
    case h_10 => cases hneutral
    all_goals rfl
  | _ => rfl

end Stmt

open Stmt

namespace Machine

variable {m : Machine} {a p s t v : Nat} {event : String} {ref : Reference}

/-- How a reference is written. -/
def spelling (m : Machine) : Reference → String
  | .function r => m.routineName r
  | .handler r => m.handlerEnum ++ "::" ++ m.routineVariant r
  | .stateId v => m.stateEnum ++ "::" ++ m.stateMember v
  | .eventId event => m.eventEnum ++ "::" ++ Naming.eventMember event

/-- The functions that are declared, state by state: those of the state, of its events, and of the
shared pseudo-states right inside it. -/
def declaredFunctions (m : Machine) : List Routine :=
  m.states.flatMap fun v =>
    .enter v :: .exit v :: (m.eventsOf v).map (.event v) ++ (m.plan.sharedIn m v).map .shared

/-- Whether the reference is to something that is declared once. -/
def Declares (m : Machine) : Reference → Prop
  | .function r => m.declaredFunctions.count r = 1
  | .handler r => m.handlers.count r = 1
  | .stateId v => m.states.count v = 1
  | .eventId event => m.events.count event = 1

/-- The declarations in the code of a file, each group in one place. -/
structure DeclaredIn (m : Machine) (code : List Stmt) : Prop where
  functions : (partsAll code).filterMap routine? = m.declaredFunctions
  handlers : bodies ("enum " ++ m.handlerEnum) code =
    [m.handlers.map fun r => .line (m.routineVariant r ++ ",")]
  stateIds : bodies ("pub enum " ++ m.stateEnum) code =
    [numbered 0 (m.states.map fun v => (m.stateMember v, ""))]
  eventIds : bodies ("pub enum " ++ m.eventEnum) code =
    [numbered 0 (m.events.map fun event => (Naming.eventMember event, eventNote event))]

/-- What the functions refer to that every machine has: a new machine is in the root, every handler
is run by calling its function, and all states and events are named. -/
def fixedReferences (m : Machine) : List Reference :=
  .stateId root :: (m.handlers.flatMap fun r => [.handler r, .function r]) ++
    m.states.map .stateId ++ m.events.map .eventId

/-- The places in the code of a file where the fixed references stand. -/
structure RefersIn (m : Machine) (this : String) (code : List Stmt) : Prop where
  initial : ∃ rest, bodies "Self" code =
    [.line (Naming.stateIdField ++ ": " ++ m.spelling (.stateId root) ++ ",") :: rest]
  calls : bodies "match func" code =
    [m.handlers.map fun r =>
      .line (m.spelling (.handler r) ++ " => " ++ this ++ "." ++ m.spelling (.function r) ++ "(),")]
  stateNames : bodies
      ("pub fn " ++ "state_id_to_string" ++ "(id: " ++ m.stateEnum ++ ") -> &'static str") code =
    [[.block (.text "match id")
      (m.states.map fun v =>
        .line (m.spelling (.stateId v) ++ " => " ++ Text.quoted (m.describe v) ++ ",")) true]]
  eventNames : bodies
      ("pub fn " ++ "event_id_to_string" ++ "(id: " ++ m.eventEnum ++ ") -> &'static str") code =
    [[.block (.text "match id")
      (m.events.map fun event =>
        .line (m.spelling (.eventId event) ++ " => " ++ Text.quoted event ++ ",")) true]]

/-- No function is declared twice. -/
theorem nodup_declaredFunctions (m : Machine) : m.declaredFunctions.Nodup := by
  have hshared := List.nodup_flatMap.mp (m.nodup_shared m.plan)
  rw [declaredFunctions, List.nodup_flatMap]
  constructor
  · intro v hv
    have hevents : ((m.eventsOf v).map (Routine.event v)).Nodup :=
      (Text.nodup_sortedSet _).map fun _ _ h => (Routine.event.inj h).2
    have hpseudo : ((m.plan.sharedIn m v).map Routine.shared).Nodup :=
      (hshared.1 v hv).map fun _ _ h => Routine.shared.inj h
    have hapart :
        ((m.eventsOf v).map (Routine.event v)).Disjoint ((m.plan.sharedIn m v).map .shared) := by
      intro r hr hr'
      obtain ⟨event, -, rfl⟩ := List.mem_map.mp hr
      simp at hr'
    simp [List.nodup_append', hevents, hpseudo, hapart]
  · refine m.nodup_states.and hshared.2 |>.imp fun {v w} h r hr hr' => ?_
    obtain ⟨hne, hdisjoint⟩ := h
    simp only [List.cons_append, List.mem_cons, List.mem_append, List.mem_map] at hr hr'
    rcases hr with rfl | rfl | ⟨event, -, rfl⟩ | ⟨p, hp, rfl⟩
    · simp [hne] at hr'
    · simp [hne] at hr'
    · simp [hne.symm] at hr'
    · have hp' : p ∈ m.plan.sharedIn m w := by simpa using hr'
      exact hdisjoint hp hp'

/-- Handlers are functions that are declared. -/
theorem handlers_sublist (m : Machine) : m.handlers.Sublist m.declaredFunctions := by
  rw [handlers, declaredFunctions]
  induction m.states with
  | nil => exact .refl _
  | cons v rest ih =>
    rw [List.flatMap_cons, List.flatMap_cons]
    exact ((List.sublist_append_left _ _).cons _).append ih

/-- Each function of the list is declared once. -/
theorem declares_function {r : Routine} (h : r ∈ m.declaredFunctions) : m.Declares (.function r) :=
  List.count_eq_one_of_mem m.nodup_declaredFunctions h

/-- Each handler of the list is declared once. -/
theorem declares_handler {r : Routine} (h : r ∈ m.handlers) : m.Declares (.handler r) :=
  List.count_eq_one_of_mem (m.nodup_declaredFunctions.sublist m.handlers_sublist) h

/-- What is declared for every state. -/
theorem declares_state (hv : v ∈ m.states) :
    m.Declares (.function (.enter v)) ∧ m.Declares (.function (.exit v)) ∧
      m.Declares (.handler (.exit v)) ∧
      m.Declares (.stateId v) := by
  refine ⟨?_, ?_, ?_, List.count_eq_one_of_mem m.nodup_states hv⟩
  · exact declares_function (List.mem_flatMap.mpr ⟨v, hv, by simp⟩)
  · exact declares_function (List.mem_flatMap.mpr ⟨v, hv, by simp⟩)
  · exact declares_handler (List.mem_flatMap.mpr ⟨v, hv, by simp⟩)

/-- What is declared for every event of a state. -/
theorem declares_event (h : m.Grown) (hv : v ∈ m.states) (he : event ∈ m.eventsOf v) :
    m.Declares (.handler (.event v event)) ∧ m.Declares (.eventId event) := by
  refine ⟨declares_handler (List.mem_flatMap.mpr ⟨v, hv, by simp [he]⟩), ?_⟩
  have hlt : v < m.size := h.lt_size_of_root_mem (root_mem_of_mem_states hv)
  refine List.count_eq_one_of_mem (Text.nodup_sortedSet _)
    (Text.mem_sortedSet.mpr (List.mem_cons_of_mem _ ?_))
  exact List.mem_flatMap.mpr ⟨v, List.mem_range.mpr hlt, he⟩

/-- The state that an event of a listed state is handed on to is listed and handles the event. -/
theorem nextHandler_spec (h : m.Grown) (hvalid : m.problems = []) (hevent : Trigger.isEvent event)
    (hv : v ∈ m.states) (ha : m.nextHandler v event = some a) :
    a ∈ m.states ∧ event ∈ m.eventsOf a := by
  have hroot := root_mem_of_mem_states hv
  rw [nextHandler, outward_eq_ancestors (h.holder_eq_parent hroot)] at ha
  have hreacts := List.find?_some ha
  have hmem := List.mem_of_find?_eq_some ha
  refine ⟨?_, mem_eventsOf.mpr ⟨hevent, hreacts⟩⟩
  cases hp : m.parent v with
  | none =>
    rw [ancestors, ancestorsAndSelf_of_top hp] at hmem
    cases hmem
  | some p =>
    rw [ancestors_of_parent hp] at hmem
    -- it has something inside it, the vertex or what the vertex lies in
    obtain ⟨child, hchild⟩ : ∃ child, m.parent child = some a := by
      by_cases hpa : p = a
      · exact ⟨v, hpa ▸ hp⟩
      · exact exists_child_of_mem hmem hpa
    have hroota := root_mem_of_mem ((root_mem_iff_of_parent hp).mp hroot) hmem
    exact (h.mem_states hvalid).mpr ⟨hroota, isState_of_parent hvalid hchild⟩

/-- A vertex that is left by calling its exit function is a listed state. -/
theorem mem_states_of_directExit (h : m.Grown) (hvalid : m.problems = [])
    (hs : root ∈ m.ancestorsAndSelf s) {path : Path} (hv : m.directExit s path = .ok (true, v)) :
    v ∈ m.states := by
  rw [h.mem_states hvalid]
  unfold directExit at hv
  dsimp only at hv
  split at hv
  · split at hv
    · cases hv
    · split at hv
      · next state hparent =>
        simp only [Except.ok.injEq, Prod.mk.injEq, Bool.and_eq_true] at hv
        obtain ⟨⟨⟨hstate, -⟩, -⟩, rfl⟩ := hv
        exact ⟨(root_mem_iff_of_parent hparent).mp hs, hstate⟩
      · cases hv
  · simp only [Except.ok.injEq, Prod.mk.injEq, Bool.and_eq_true] at hv
    obtain ⟨⟨⟨hstate, -⟩, -⟩, rfl⟩ := hv
    exact ⟨hs, hstate⟩

/-- The behavior belongs to a vertex of the root and leads to one, if anywhere. -/
def StaysInRoot (m : Machine) (b : Behavior) : Prop :=
  root ∈ m.ancestorsAndSelf b.owner ∧ ∀ t, b.target = some t → root ∈ m.ancestorsAndSelf t

end Machine

namespace Compiler

variable {c : Compiler} {v : Nat} {stmt : Stmt} {ref : Reference}

open Machine

/-- Transitions that start in the root and whose paths are found stay in the root. -/
theorem follows_root (h : c.machine.Grown) (htargets : c.machine.TargetsExist) :
    c.Follows (root ∈ c.machine.ancestorsAndSelf ·) c.machine.StaysInRoot where
  first b hb howner hpath :=
    ⟨howner, fun t ht => h.root_mem_of_hasPath howner (htargets b hb t ht) (hpath t ht)⟩
  next _ t _ hb ht hp := root_mem_of_completion (hb.2 t ht) hp

/-- A state that is entered is listed. -/
theorem mem_states_of_enters (h : c.machine.Grown) (hvalid : c.machine.problems = [])
    (hv : c.Enters c.machine.StaysInRoot v) : v ∈ c.machine.states := by
  rw [h.mem_states hvalid]
  cases hv with
  | root => exact ⟨self_mem_ancestorsAndSelf _ root, h.root_isState⟩
  | towards hb ht hv hstate =>
    rw [path_enters h hb.1 (hb.2 _ ht), List.mem_reverse] at hv
    have hmem : v ∈ c.machine.ancestorsAndSelf _ := List.takeWhile_subset _ hv
    exact ⟨root_mem_of_mem (hb.2 _ ht) hmem, hstate⟩

/-- Emitted code refers to what is declared. -/
theorem declares_of_emits (h : c.machine.Grown) (hvalid : c.machine.problems = [])
    (hplan : c.plan = c.machine.plan)
    (hemits : c.Emits c.machine.StaysInRoot (· ∈ c.machine.states) stmt)
    (href : ref ∈ stmt.references) :
    c.machine.Declares ref := by
  cases hemits with
  | neutral hneutral => simp [references_of_isNeutral hneutral] at href
  | enter hv =>
    rw [List.mem_singleton.mp href]
    exact (declares_state (mem_states_of_enters h hvalid hv)).1
  | movedOn hv body =>
    rw [List.mem_singleton.mp href]
    exact (declares_state (mem_states_of_enters h hvalid hv)).2.2.1
  | exit hb ht hv =>
    rw [List.mem_singleton.mp href]
    exact (declares_state (mem_states_of_directExit h hvalid hb.1 hv)).2.1
  | exitUpTo hb ht hstate =>
    have hroot := root_mem_of_mem (hb.2 _ ht) (path_lca_mem_target h hb.1 (hb.2 _ ht))
    rw [List.mem_singleton.mp href]
    exact (declares_state ((h.mem_states hvalid).mpr ⟨hroot, hstate⟩)).2.2.1
  | settle hb ht hend =>
    rw [List.mem_singleton.mp href]
    exact (declares_state
      ((h.mem_states hvalid).mpr ⟨hb.2 _ ht, isState_of_completion_eq_none hend⟩)).2.2.2
  | proceed hb ht hp hshared =>
    rw [List.mem_singleton.mp href]
    obtain ⟨v, hv, hmem⟩ := List.mem_flatMap.mp ((h.mem_shared hvalid).mpr
      ⟨root_mem_of_completion (hb.2 _ ht) hp, isPseudo_of_completion hp, hplan ▸ hshared⟩)
    exact declares_function (List.mem_flatMap.mpr ⟨v, hv, by simp [hmem]⟩)
  | setExit hv =>
    rw [List.mem_singleton.mp href]
    exact (declares_state hv).2.2.1
  | setOuterExit hv hp hstate =>
    have hroot := root_mem_of_mem_states hv
    rw [h.holder_eq_parent hroot] at hp
    rw [List.mem_singleton.mp href]
    exact (declares_state
      ((h.mem_states hvalid).mpr ⟨(root_mem_iff_of_parent hp).mp hroot, hstate⟩)).2.2.1
  | setHandler hv he =>
    obtain ⟨hhandler, hid⟩ := declares_event h hv he
    rcases List.mem_pair.mp href with rfl | rfl
    · exact hid
    · exact hhandler
  | @restoreHandler v event hv he =>
    obtain ⟨-, hid⟩ := declares_event h hv he
    cases hnext : c.machine.nextHandler v event with
    | none =>
      rw [hnext] at href
      rw [List.mem_singleton.mp href]
      exact hid
    | some a =>
      rw [hnext] at href
      obtain ⟨ha, hea⟩ := nextHandler_spec h hvalid (mem_eventsOf.mp he).1 hv hnext
      rcases List.mem_pair.mp href with rfl | rfl
      · exact hid
      · exact (declares_event h ha hea).1
  | passTo hv he ha =>
    obtain ⟨ha, hea⟩ := nextHandler_spec h hvalid he hv ha
    rw [List.mem_singleton.mp href]
    exact (declares_event h ha hea).1

/-- The statements in the start function and in the functions of routines have their reasons. -/
theorem emits_of_fault {config : Config} (h : c.machine.Grown) (htargets : c.machine.TargetsExist)
    (hfault : (c.functions config).fault = none) :
    (∀ stmt ∈ partsAll c.start.code, c.Emits c.machine.StaysInRoot (· ∈ c.machine.states) stmt) ∧
      ∀ r ∈ c.routines, ∀ stmt ∈ partsAll (c.routineBody r).code,
        c.Emits c.machine.StaysInRoot (· ∈ c.machine.states) stmt := by
  obtain ⟨hstart, hroutines⟩ := fault_functions.mp hfault
  have hfollows := follows_root h htargets
  constructor
  · apply emits_start hfollows _ hstart
    intro i hi
    refine ⟨self_mem_ancestorsAndSelf c.machine root, fun t ht => ?_⟩
    obtain rfl : i = t := Option.some.inj ht
    exact root_mem_of_initialOf hi
  · intro r hr
    apply emits_routineBody hfollows _ (hroutines r hr)
    obtain ⟨v, hv, rfl | rfl | ⟨event, -, rfl⟩ | ⟨p, hp, rfl⟩⟩ := mem_routines.mp hr
    · exact ⟨root_mem_of_mem_states hv, hv⟩
    · exact ⟨root_mem_of_mem_states hv, hv⟩
    · exact ⟨root_mem_of_mem_states hv, hv⟩
    · exact root_mem_of_mem_sharedIn hv hp

/-- The parts of the function of a routine are its block, the parts of its body, and a gap. -/
theorem parts_routineCode (c : Compiler) (r : Routine) :
    partsAll (c.routineCode r) =
      .block (.routine r) (c.routineBody r).code true :: partsAll (c.routineBody r).code ++
      [.gap] := by
  simp [routineCode, parts]

/-- Every statement of a file refers to what is declared. -/
theorem declares_of_mem_parts {config : Config} {vars : List AutoVar} (h : c.machine.Grown)
    (htargets : c.machine.TargetsExist) (hvalid : c.machine.problems = [])
    (hplan : c.plan = c.machine.plan) (hfault : (c.functions config).fault = none)
    (hstmt : stmt ∈ partsAll (c.file config vars).code) (href : ref ∈ stmt.references) :
    c.machine.Declares ref := by
  obtain ⟨hstart, hroutines⟩ := emits_of_fault h htargets hfault
  have hkeep (stmt : Stmt) (hfixed : stmt.isFixed) : (!stmt.references.isEmpty) = false := by
    rw [references_of_isFixed hfixed]
    rfl
  have hsome : (!stmt.references.isEmpty) = true := by
    rw [List.isEmpty_eq_false_iff_exists_mem.mpr ⟨ref, href⟩]
    rfl
  have hmem : stmt ∈ (partsAll (c.file config vars).code).filter fun stmt =>
      !stmt.references.isEmpty :=
    List.mem_filter.mpr ⟨hstmt, hsome⟩
  rw [filter_parts_file hkeep hfault, List.mem_append, List.mem_flatMap] at hmem
  rcases hmem with hmem | ⟨r, hr, hmem⟩
  · exact declares_of_emits h hvalid hplan (hstart stmt (List.mem_filter.mp hmem).1) href
  · have hpart := (List.mem_filter.mp hmem).1
    simp only [parts_routineCode, List.cons_append, List.mem_cons, List.mem_append,
      List.not_mem_nil, or_false] at hpart
    rcases hpart with rfl | hpart | rfl
    · cases href
    · exact declares_of_emits h hvalid hplan (hroutines r hr stmt hpart) href
    · cases href

/-- The functions of routines stand in a file in order, and nowhere else. -/
theorem filterMap_routine?_file {config : Config} {vars : List AutoVar}
    (hfault : (c.functions config).fault = none) :
    (partsAll (c.file config vars).code).filterMap routine? = c.routines := by
  obtain ⟨hstart, hroutines⟩ := fault_functions.mp hfault
  have hemitsStart : c.start.Throughout (c.Emits (fun _ => True) fun _ => True) :=
    emits_start c.follows_any fun _ _ => trivial
  have hstartNone : (partsAll c.start.code).filterMap routine? = [] :=
    List.filterMap_eq_nil_iff.mpr fun stmt hstmt =>
      routine?_of_emits (hemitsStart hstart stmt hstmt)
  have heach (r : Routine) (hr : r ∈ c.routines) :
      (partsAll (c.routineCode r)).filterMap routine? = [r] := by
    have hemits : (c.routineBody r).Throughout (c.Emits (fun _ => True) fun _ => True) :=
      emits_routineBody c.follows_any (ofVertex_any r)
    have hbody : (partsAll (c.routineBody r).code).filterMap routine? = [] :=
      List.filterMap_eq_nil_iff.mpr fun stmt hstmt =>
        routine?_of_emits (hemits (hroutines r hr) stmt hstmt)
    have hhead : routine? (.block (.routine r) (c.routineBody r).code true) = some r := rfl
    rw [parts_routineCode, List.filterMap_append, List.filterMap_cons_some hhead, hbody]
    rfl
  rw [filterMap_parts_file (fun _ => routine?_of_isFixed) hfault, hstartNone, List.nil_append,
    List.flatMap_congr heach, List.flatMap_singleton']

/-- The declarations of a file stand where they are looked for. -/
theorem declaredIn_file {config : Config} (vars : List AutoVar) (hplan : c.plan = c.machine.plan)
    (hfault : (c.functions config).fault = none) :
    c.machine.DeclaredIn (c.file config vars).code where
  functions := by
    rw [filterMap_routine?_file hfault, routines, declaredFunctions, ← hplan]
    rfl
  handlers := by
    refine bodies_file hfault (by simp [memberFronts]) (.inl ?_)
    simp only [declarations, handlerDeclarations, item, partsAll_append, partsAll_cons, parts_block,
      List.mem_append, List.mem_cons, true_or, or_true]
  stateIds := by
    refine bodies_file hfault (by simp [memberFronts]) (.inl ?_)
    simp only [declarations, stateDeclarations, item, partsAll_append, partsAll_cons, parts_block,
      List.mem_append, List.mem_cons, true_or, or_true]
  eventIds := by
    refine bodies_file hfault (by simp [memberFronts]) (.inl ?_)
    simp only [declarations, eventDeclarations, item, partsAll_append, partsAll_cons, parts_block,
      List.mem_append, List.mem_cons, true_or, or_true]

/-- The references of the functions that every machine has stand where they are looked for. -/
theorem refersIn_file {config : Config} (vars : List AutoVar)
    (hfault : (c.functions config).fault = none) :
    c.machine.RefersIn c.ctx.machine (c.file config vars).code where
  initial := by
    obtain ⟨rest, hrest⟩ : ∃ rest, .block (.text "Self")
        (.line (Naming.stateIdField ++ ": " ++ c.machine.spelling (.stateId root) ++ ",") :: rest)
          true ∈
          partsAll (c.machine.constructor config) := by
      apply Exists.intro
      rw [spelling, ← String.append_assoc, ← String.append_assoc]
      exact .tail _ (.tail _ (.head _))
    refine ⟨rest, bodies_file hfault (by simp [memberFronts]) (.inr ?_)⟩
    rw [partsAll_append, partsAll_append]
    exact List.mem_append_left _ (List.mem_append_left _ hrest)
  calls := by
    refine bodies_file hfault (by simp [memberFronts]) (.inr ?_)
    simp only [handlerCalls, spelling, item, partsAll_append, partsAll_cons, parts_block,
      List.mem_append, List.mem_cons, String.append_assoc, true_or, or_true]
  stateNames := by
    refine bodies_file hfault (by simp [memberFronts]) (.inr ?_)
    simp only [nameFunctions, nameFunction, spelling, List.map_map, partsAll_append, partsAll_cons,
      parts_block, List.mem_append, List.mem_cons, Function.comp_def, true_or, or_true]
  eventNames := by
    refine bodies_file hfault (by simp [memberFronts]) (.inr ?_)
    simp only [nameFunctions, nameFunction, spelling, List.map_map, partsAll_append, partsAll_cons,
      parts_block, List.mem_append, List.mem_cons, Function.comp_def, true_or, or_true]

end Compiler

namespace Machine

variable {m : Machine} {config : Config} {expander : Snippet.Expander} {ctx : Context}
  {text : String}

/-- The functions that every machine has refer to what is declared. -/
theorem declares_of_mem_fixedReferences (h : m.Grown) {ref : Reference}
    (href : ref ∈ m.fixedReferences) :
    m.Declares ref := by
  simp only [fixedReferences, List.cons_append, List.mem_cons, List.mem_append, List.mem_flatMap,
    List.mem_map, List.not_mem_nil, or_false] at href
  rcases href with rfl | (⟨r, hr, rfl | rfl⟩ | ⟨v, hv, rfl⟩) | ⟨event, he, rfl⟩
  · refine List.count_eq_one_of_mem m.nodup_states ?_
    rw [states_eq, statesWithin_of_isState h.root_isState]
    exact List.mem_cons_self
  · exact declares_handler hr
  · exact declares_function (m.handlers_sublist.subset hr)
  · exact List.count_eq_one_of_mem m.nodup_states hv
  · exact List.count_eq_one_of_mem (Text.nodup_sortedSet _) he

/-- The file of a valid machine refers to nothing that it does not declare once. -/
theorem generated_references_declared {name : String} {additions : List Addition}
    (hgrow : (new name).growAll additions = some m) (htargets : m.TargetsExist)
    (hvalid : m.problems = []) (htext : m.generateWith config expander ctx = .ok text) :
    ∃ vars, config.autoVars = .ok vars ∧
      ((m.compiler expander ctx).file config vars).render m ctx config.style = .ok text ∧
      m.DeclaredIn ((m.compiler expander ctx).file config vars).code ∧
      m.RefersIn ctx.machine ((m.compiler expander ctx).file config vars).code ∧
      ∀ ref ∈ m.fixedReferences ++
          (partsAll ((m.compiler expander ctx).file config vars).code).flatMap references,
        m.Declares ref := by
  have hgrown := (grown_new name).growAll hgrow
  have hfault := fault_functions_of_generateWith htext
  obtain ⟨vars, hvars, hrender⟩ := render_of_generateWith htext
  refine ⟨vars, hvars, hrender,
    Compiler.declaredIn_file (c := m.compiler expander ctx) vars rfl hfault,
    Compiler.refersIn_file (c := m.compiler expander ctx) vars hfault, fun ref href => ?_⟩
  rcases List.mem_append.mp href with hfixed | hcode
  · exact declares_of_mem_fixedReferences hgrown hfixed
  · obtain ⟨stmt, hstmt, href⟩ := List.mem_flatMap.mp hcode
    exact Compiler.declares_of_mem_parts (c := m.compiler expander ctx) hgrown htargets hvalid rfl
      hfault hstmt href

/-- The file of the lamp calls the function of its choice, which it declares along with the root,
and hands pushes on to what is on. -/
theorem lamp_references_declared :
    lamp.problems = [] ∧ (∃ text, lamp.generateWith {} {} {} = .ok text) ∧
      lamp.DeclaredIn ((lamp.compiler {} {}).file {} []).code ∧
      .function (.shared 7) ∈ (partsAll ((lamp.compiler {} {}).file {} []).code).flatMap
        references ∧
      lamp.declaredFunctions.count (.shared 7) = 1 ∧ lamp.handlers.count (.event 3 "push") = 1 := by
  obtain ⟨text, htext⟩ : ∃ text, lamp.generateWith {} {} {} = .ok text :=
    exists_eq_ok (by decide +kernel)
  have hvalid : lamp.problems = [] := by decide +kernel
  obtain ⟨name, additions, hgrow⟩ := lamp_assembled.exists_growAll
  obtain ⟨vars, hvars, -, hdeclared, -, hall⟩ :=
    generated_references_declared hgrow (by decide) hvalid htext
  obtain rfl : vars = [] := (Except.ok.inj hvars).symm
  have hshared : .function (.shared 7) ∈
      (partsAll ((lamp.compiler {} {}).file {} []).code).flatMap references := by
    decide +kernel
  have hpush : .handler (.event 3 "push") ∈
      (partsAll ((lamp.compiler {} {}).file {} []).code).flatMap references := by
    decide +kernel
  exact ⟨hvalid, ⟨text, htext⟩, hdeclared, hshared, hall _ (List.mem_append_right _ hshared),
    hall _ (List.mem_append_right _ hpush)⟩

end Machine

end Statechart
