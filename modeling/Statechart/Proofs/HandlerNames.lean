import Statechart.Proofs.Collisions

/-!
# Names of event handlers

The function that handles an event in a state is named by the words of the state and then those of
the event, and it is called by the state with the event in brackets. A state whose own name has an
opening bracket in it can be told from its event in two ways: `A (b` with the event `c)` is called
the same as `A` with the event `b (c)`. Between such handlers no collision is found. They have the
same function or the same member exactly if the words between the two brackets are spelled the same
at the end of the state as at the start of the event.
-/

namespace Statechart

namespace Naming

variable {before middle after ws : List (List Char)}

/-- Functions are named the same whether the words in the middle end the name of a state or
start that of an event: there are none, or there are words on either side and no letter is put
in front of a digit. -/
def FunctionsMeet (before middle after : List (List Char)) : Prop :=
  middle = [] ∨
    (before ≠ [] ∧ after ≠ [] ∧ startsWithDigit middle = false ∧ startsWithDigit after = false)

/-- Members are named the same whether the words in the middle end the name of a state or
start that of an event: there are none, or no letter is put in front of a digit in one of
the two cases only. -/
def MembersMeet (before middle after : List (List Char)) : Prop :=
  middle = [] ∨ ((before = [] ∨ startsWithDigit middle = false) ∧ startsWithDigit after = false)

/-! ## Functions -/

/-- The words as an identifier spells them, and an empty one if there is none. -/
def parts (ws : List (List Char)) : List (List Char) := if ws = [] then [[]] else spelled ws

/-- The parts of some words are these words as they are spelled. -/
theorem parts_of_ne_nil (h : ws ≠ []) : parts ws = spelled ws := if_neg h

/-- Only the first part is spelled in a way of its own. -/
theorem parts_append {ws' : List (List Char)} (h : ws ≠ []) :
    parts (ws ++ ws') = spelled ws ++ ws' := by
  rw [parts_of_ne_nil (List.append_ne_nil_of_left_ne_nil h ws'), spelled_append h]

/-- Joined parts are joined words. -/
theorem join_parts (ws : List (List Char)) : join (parts ws) = join (spelled ws) := by
  unfold parts
  split
  · next h =>
    rw [h]
    rfl
  · rfl

/-- A name has at least one part. -/
theorem parts_ne_nil (ws : List (List Char)) : parts ws ≠ [] := by
  unfold parts
  split
  · simp
  · next h =>
    rw [← List.length_pos_iff, length_spelled]
    exact List.length_pos_iff.mpr h

/-- Parts hold no underscore. -/
theorem not_mem_of_mem_parts {word : List Char} (h : Wordy ws) (hword : word ∈ parts ws) :
    '_' ∉ word := by
  unfold parts at hword
  split at hword
  · simp [List.mem_singleton.mp hword]
  · exact (h.spelled word hword).2

/-- Parts can be cut in two places exactly if functions spell the words between
them in the same way. -/
theorem parts_eq_iff (hmiddle : Wordy middle) :
    parts before ++ parts (middle ++ after) = parts (before ++ middle) ++ parts after ↔
      FunctionsMeet before middle after := by
  by_cases hnil : middle = []
  · simp [hnil, FunctionsMeet]
  · rw [FunctionsMeet, or_iff_right hnil, parts_append hnil]
    by_cases hbefore : before = []
    · -- one side starts with an empty part, the other one with a word
      have hempty : [] ∉ spelled middle := fun hmem => (hmiddle.spelled [] hmem).1 rfl
      simp only [hbefore, List.nil_append, parts_of_ne_nil hnil, ne_eq, not_true_eq_false,
        false_and, iff_false]
      intro heq
      cases hspelled : spelled middle with
      | nil => exact parts_ne_nil middle ((parts_of_ne_nil hnil).trans hspelled)
      | cons word rest =>
        rw [hspelled] at heq hempty
        exact hempty (List.mem_cons.mpr (.inl (List.cons.inj heq).1))
    · rw [parts_of_ne_nil hbefore, parts_append hbefore, List.append_assoc,
        List.append_cancel_left_eq]
      by_cases hafter : after = []
      · have hlength : (spelled middle).length ≠ (middle ++ [[]]).length := by simp [length_spelled]
        simp only [hafter, List.append_nil, ne_eq, not_true_eq_false, false_and, and_false,
          iff_false]
        exact fun h => hlength (congrArg List.length h)
      · rw [parts_of_ne_nil hafter, ← spelled_eq_self_iff, ← spelled_eq_self_iff]
        simp only [ne_eq, hbefore, hafter, not_false_eq_true, true_and]
        constructor
        · intro h
          obtain ⟨hfirst, hrest⟩ := List.append_inj h (length_spelled middle)
          exact ⟨hfirst, hrest.symm⟩
        · intro h
          rw [h.1, h.2]

/-- The name of the function that handles an event, by how the state is called. -/
def handlerFn (description event : String) : String :=
  identifier description ++ "_" ++ identifier event

/-- A handler's name joins the words of the state and those of the event. -/
theorem toList_handlerFn (description event : String) :
    (handlerFn description event).toList =
      join (spelled (words description)) ++ '_' :: join (spelled (words event)) := by
  simp [handlerFn, String.toList_append, toList_identifier]

/-- The words of two strings with an opening bracket between them. -/
theorem words_append_bracket (a b : String) : words (a ++ " (" ++ b) = words a ++ words b := by
  have houter : (a ++ " (" ++ b).toList = a.toList ++ ' ' :: ("(" ++ b).toList := by
    simp [String.toList_append]
  have hinner : ("(" ++ b).toList = "".toList ++ '(' :: b.toList := by
    simp [String.toList_append]
  rw [words_eq_append (by decide) houter, words_eq_append (by decide) hinner]
  rfl

/-- A handler keeps its function when a part of the name moves from the event to the state exactly
if functions spell the words of that part in the same way. -/
theorem handlerFn_eq_iff (description moved event : String) :
    handlerFn description (moved ++ " (" ++ event) =
      handlerFn (description ++ " (" ++ moved) event ↔
      FunctionsMeet (words description) (words moved) (words event) := by
  have hparts (a b : String) : (handlerFn a b).toList =
      join (parts (words a) ++ parts (words b)) := by
    rw [toList_handlerFn, join_append (parts_ne_nil _) (parts_ne_nil _), join_parts, join_parts]
  have hfree (a b : String) : ∀ word ∈ parts (words a) ++ parts (words b), '_' ∉ word := by
    intro word hword
    cases List.mem_append.mp hword with
    | inl h => exact not_mem_of_mem_parts (wordy_words a) h
    | inr h => exact not_mem_of_mem_parts (wordy_words b) h
  have hne (a b : String) : parts (words a) ++ parts (words b) ≠ [] :=
    List.append_ne_nil_of_left_ne_nil (parts_ne_nil _) _
  rw [← String.toList_inj, hparts, hparts, join_inj (hfree _ _) (hfree _ _) (hne _ _) (hne _ _),
    words_append_bracket, words_append_bracket, parts_eq_iff (wordy_words moved)]

/-! ## Members -/

/-- The word with its first letter as a capital. -/
def capitalize : List Char → List Char
  | [] => []
  | c :: word => c.toUpper :: word

/-- The words with capital first letters. -/
def capitals (ws : List (List Char)) : List Char := ws.flatMap capitalize

/-- Capitals of words one after the other. -/
theorem capitals_append (ws ws' : List (List Char)) :
    capitals (ws ++ ws') = capitals ws ++ capitals ws' :=
  List.flatMap_append

/-- Inside a word letters stay as they are. -/
theorem joinCapitals_false {word : List Char} (h : '_' ∉ word) :
    joinCapitals false word = word := by
  induction word with
  | nil => rfl
  | cons c word ih =>
    have hc : c ≠ '_' := fun heq => h (heq ▸ List.mem_cons_self)
    rw [joinCapitals, if_neg (by simpa using hc), ih fun hmem => h (List.mem_cons_of_mem c hmem)]
    rfl

/-- A word by itself gets a capital first letter. -/
theorem joinCapitals_true {word : List Char} (h : '_' ∉ word) :
    joinCapitals true word = capitalize word := by
  cases word with
  | nil => rfl
  | cons c word =>
    have hc : c ≠ '_' := fun heq => h (heq ▸ List.mem_cons_self)
    rw [joinCapitals, if_neg (by simpa using hc),
      joinCapitals_false fun hmem => h (List.mem_cons_of_mem c hmem)]
    rfl

/-- A name gets a capital for each of its pieces. -/
theorem joinCapitals_eq_capitals (cs : List Char) :
    joinCapitals true cs = capitals (pieces cs) := by
  induction hn : cs.length using Nat.strongRecOn generalizing cs with
  | ind n ih =>
    by_cases hmem : '_' ∈ cs
    · obtain ⟨word, rest, rfl, hword⟩ := List.eq_append_cons_of_mem hmem
      have hrest : rest.length < n := by
        simp only [List.length_append, List.length_cons] at hn
        omega
      rw [joinCapitals_append, pieces_append, capitals_append, ih _ hrest rest rfl,
        joinCapitals_true hword]
      refine congrArg (· ++ _) ?_
      by_cases hnil : word = []
      · rw [hnil]
        rfl
      · rw [pieces_of_not_mem hword hnil]
        simp [capitals]
    · rw [joinCapitals_true hmem]
      by_cases hnil : cs = []
      · rw [hnil]
        rfl
      · rw [pieces_of_not_mem hmem hnil]
        simp [capitals]

/-- Joined words all get capital first letters. -/
theorem joinCapitals_join (h : Wordy ws) : joinCapitals true (join ws) = capitals ws := by
  rw [joinCapitals_eq_capitals, h.pieces_join]

/-- Digits have no capitals. -/
theorem toUpper_of_isDigit {c : Char} (h : c.isDigit) : c.toUpper = c := by
  have hall : ∀ n ∈ List.range' 48 10, (Char.ofNat n).toUpper = Char.ofNat n := by decide
  exact Text.of_mem_codes (fun c => c.toUpper = c) hall (Text.toNat_mem_of_isDigit h)

/-- The letter in front of a first digit is a capital as well. -/
theorem capitals_spelled (ws : List (List Char)) :
    capitals (spelled ws) = if startsWithDigit ws then 'N' :: capitals ws else capitals ws := by
  cases ws with
  | nil => rfl
  | cons word rest =>
    cases word with
    | nil => rfl
    | cons c word =>
      cases hdigit : c.isDigit with
      | false => simp [spelled, startsWithDigit, hdigit]
      | true =>
        simp [spelled, startsWithDigit, hdigit, capitals, capitalize, toUpper_of_isDigit hdigit]

/-- Spelling changes no capital exactly if the first word does not start with a digit. -/
theorem capitals_spelled_eq_iff : capitals (spelled ws) = capitals ws ↔
    startsWithDigit ws = false := by
  rw [capitals_spelled]
  cases startsWithDigit ws with
  | false => simp
  | true => simp

/-- Words that start with a digit do not start with the letter that is put in front of it. -/
theorem exists_capitals_eq_cons (h : startsWithDigit ws) :
    ∃ c rest, capitals ws = c :: rest ∧ c ≠ 'N' := by
  cases ws with
  | nil => cases h
  | cons word rest =>
    cases word with
    | nil => cases h
    | cons c word =>
      have hc : c.isDigit := h
      have hne : c ≠ 'N' := by
        intro heq
        rw [heq] at hc
        exact absurd hc (by decide)
      refine ⟨c, word ++ capitals rest, ?_, hne⟩
      rw [capitals, List.flatMap_cons, capitalize, toUpper_of_isDigit hc, List.cons_append]
      rfl

/-- Capitals can be cut in two places exactly if members spell the words between
them in the same way. -/
theorem capitals_eq_iff (hnil : middle ≠ []) :
    capitals (spelled before) ++ capitals (spelled (middle ++ after)) =
        capitals (spelled (before ++ middle)) ++ capitals (spelled after) ↔
      (before = [] ∨ startsWithDigit middle = false) ∧ startsWithDigit after = false := by
  rw [spelled_append hnil, capitals_append]
  by_cases hbefore : before = []
  · have hempty : capitals (spelled []) = [] := rfl
    simp only [hbefore, hempty, List.nil_append, true_or, true_and]
    rw [List.append_cancel_left_eq, ← capitals_spelled_eq_iff, eq_comm]
  · rw [spelled_append hbefore, capitals_append, List.append_assoc, List.append_cancel_left_eq,
      or_iff_right hbefore, capitals_spelled middle, capitals_spelled after]
    cases hmiddle : startsWithDigit middle with
    | false => cases startsWithDigit after <;> simp
    | true =>
      cases startsWithDigit after with
      | false => simp
      | true =>
        -- a letter has come up on both sides, but in front of the first digit on one side only
        obtain ⟨c, rest, hcapitals, hc⟩ := exists_capitals_eq_cons hmiddle
        simp only [if_true, Bool.true_eq_false, and_self, iff_false]
        intro heq
        rw [hcapitals] at heq
        exact hc (List.cons.inj heq).1.symm

/-- Words have capitals if there are any. -/
theorem capitals_spelled_ne_nil (h : Wordy ws) (hne : ws ≠ []) : capitals (spelled ws) ≠ [] := by
  cases hws : spelled ws with
  | nil => exact absurd ((parts_of_ne_nil hne).trans hws) (parts_ne_nil ws)
  | cons word rest =>
    cases word with
    | nil => exact absurd rfl (h.spelled [] (hws ▸ List.mem_cons_self)).1
    | cons c word => simp [capitals, capitalize]

/-- The member for the function that handles an event. -/
def handlerMember (description event : String) : String := pascalCase (handlerFn description event)

/-- A member is spelled by the capitals of the state and those of the event, if it has any. -/
theorem toList_handlerMember {description event : String}
    (h : capitals (spelled (words description)) ++ capitals (spelled (words event)) ≠ []) :
    (handlerMember description event).toList =
      capitals (spelled (words description)) ++ capitals (spelled (words event)) := by
  have hjoin : joinCapitals true (handlerFn description event).toList =
      capitals (spelled (words description)) ++ capitals (spelled (words event)) := by
    rw [toList_handlerFn, joinCapitals_append, joinCapitals_join (wordy_words _).spelled,
      joinCapitals_join (wordy_words _).spelled]
  rw [handlerMember, pascalCase, String.toList_ofList, pascalChars, hjoin]
  split
  · next hnil => exact absurd hnil h
  · rfl

/-- A handler keeps its member when a part of the name moves from the event to the state exactly if
members spell the words of that part in the same way. -/
theorem handlerMember_eq_iff (description moved event : String) :
    handlerMember description (moved ++ " (" ++ event) =
      handlerMember (description ++ " (" ++ moved) event ↔
      MembersMeet (words description) (words moved) (words event) := by
  by_cases hnil : words moved = []
  · have hsame := (handlerFn_eq_iff description moved event).mpr (.inl hnil)
    simp only [handlerMember, hsame, MembersMeet, hnil, true_or]
  · have hstate := capitals_spelled_ne_nil (wordy_words (description ++ " (" ++ moved))
      (by simp [words_append_bracket, hnil])
    have hevent :=
      capitals_spelled_ne_nil (wordy_words (moved ++ " (" ++ event))
        (by simp [words_append_bracket, hnil])
    rw [MembersMeet, or_iff_right hnil, ← capitals_eq_iff hnil, ← words_append_bracket,
      ← words_append_bracket, ← String.toList_inj,
      toList_handlerMember (List.append_ne_nil_of_right_ne_nil _ hevent),
      toList_handlerMember (List.append_ne_nil_of_left_ne_nil hstate _)]

/-! ## What handlers are called -/

/-- Two ways to put an opening bracket in front of a text: it is the same one, or there is another
one before it. -/
theorem bracket_eq_append {a e f : List Char} (h : ' ' :: '(' :: e = a ++ ' ' :: '(' :: f) :
    (a = [] ∧ e = f) ∨ ∃ x, a = ' ' :: '(' :: x ∧ e = x ++ ' ' :: '(' :: f := by
  cases a with
  | nil => simp_all
  | cons c a =>
    cases a with
    | nil => simp at h
    | cons d x =>
      simp only [List.cons_append, List.cons.injEq] at h
      obtain ⟨rfl, rfl, he⟩ := h
      exact .inr ⟨x, rfl, he⟩

/-- If a text in front of an opening bracket is longer than another one, the event behind the other
one is longer. -/
theorem exists_moved {d e d' f : String} {a : List Char} (hd : d'.toList = d.toList ++ a)
    (h : ' ' :: '(' :: e.toList = a ++ ' ' :: '(' :: f.toList) :
    (d = d' ∧ e = f) ∨ ∃ moved, d' = d ++ " (" ++ moved ∧ e = moved ++ " (" ++ f := by
  cases bracket_eq_append h with
  | inl hsame =>
    rw [hsame.1, List.append_nil] at hd
    exact .inl ⟨(String.toList_inj.mp hd).symm, String.toList_inj.mp hsame.2⟩
  | inr hmoved =>
    obtain ⟨x, rfl, he⟩ := hmoved
    refine .inr ⟨String.ofList x, String.toList_inj.mp ?_, String.toList_inj.mp ?_⟩
    · simp [hd, String.toList_append]
    · simp [he, String.toList_append]

/-- Handlers that are called the same differ at most by a part of the name that one of them has in
the state and the other one in the event. -/
theorem bracketed_cases {d e d' f : String} (h : d ++ " (" ++ e ++ ")" = d' ++ " (" ++ f ++ ")") :
    (d = d' ∧ e = f) ∨ (∃ moved, d' = d ++ " (" ++ moved ∧ e = moved ++ " (" ++ f) ∨
      ∃ moved, d = d' ++ " (" ++ moved ∧ f = moved ++ " (" ++ e := by
  rw [String.append_left_inj, ← String.toList_inj] at h
  have hlists : d.toList ++ ' ' :: '(' :: e.toList = d'.toList ++ ' ' :: '(' :: f.toList := by
    simpa [String.toList_append] using h
  cases List.append_eq_append_iff.mp hlists with
  | inl hlonger =>
    obtain ⟨a, hd, he⟩ := hlonger
    cases exists_moved hd he with
    | inl hsame => exact .inl hsame
    | inr hmoved => exact .inr (.inl hmoved)
  | inr hshorter =>
    obtain ⟨a, hd, hf⟩ := hshorter
    cases exists_moved hd hf with
    | inl hsame => exact .inl ⟨hsame.1.symm, hsame.2.symm⟩
    | inr hmoved => exact .inr (.inr hmoved)

end Naming

namespace Machine

open Naming

variable {m : Machine} {v w : Nat} {e f : String}

/-- The second state is called as the first one with a part of its event, the second event is what
is left of it, and the words of that part are spelled in the same way on either side. -/
def Overlaps (m : Machine) (meets : List (List Char) → List (List Char) → List (List Char) → Prop)
    (v : Nat) (e : String) (w : Nat) (f : String) : Prop :=
  ∃ moved, m.describe w = m.describe v ++ " (" ++ moved ∧ e = moved ++ " (" ++ f ∧
    meets (words (m.describe v)) (words moved) (words f)

/-- Without collisions, handlers have the same name exactly if they are the same or overlap. -/
theorem handler_eq_iff (name : String → String → String) {category : Category}
    {meets : List (List Char) → List (List Char) → List (List Char) → Prop}
    (hmoves : ∀ d moved f, name d (moved ++ " (" ++ f) = name (d ++ " (" ++ moved) f ↔
      meets (words d) (words moved) (words f))
    (hcollision : m.collision = none) (hdistinct : m.describe v = m.describe w → v = w)
    (huse : ⟨category, name (m.describe v) e, m.describe v ++ " (" ++ e ++ ")"⟩ ∈ m.uses)
    (huse' : ⟨category, name (m.describe w) f, m.describe w ++ " (" ++ f ++ ")"⟩ ∈ m.uses) :
    name (m.describe v) e = name (m.describe w) f ↔
      (v = w ∧ e = f) ∨ m.Overlaps meets v e w f ∨ m.Overlaps meets w f v e := by
  constructor
  · intro hname
    have howner := owner_eq_of_mem_uses hcollision huse huse' hname
    cases bracketed_cases howner with
    | inl hsame => exact .inl ⟨hdistinct hsame.1, hsame.2⟩
    | inr hmoved =>
      cases hmoved with
      | inl hstate =>
        obtain ⟨moved, hw, he⟩ := hstate
        rw [hw, he, hmoves] at hname
        exact .inr (.inl ⟨moved, hw, he, hname⟩)
      | inr hevent =>
        obtain ⟨moved, hv, hf⟩ := hevent
        rw [hv, hf, eq_comm, hmoves] at hname
        exact .inr (.inr ⟨moved, hv, hf, hname⟩)
  · intro h
    cases h with
    | inl hsame => rw [hsame.1, hsame.2]
    | inr hoverlap =>
      cases hoverlap with
      | inl hstate =>
        obtain ⟨moved, hw, he, hmeets⟩ := hstate
        rw [hw, he, hmoves]
        exact hmeets
      | inr hevent =>
        obtain ⟨moved, hv, hf, hmeets⟩ := hevent
        rw [hv, hf, eq_comm, hmoves]
        exact hmeets

/-- In the machine of a document, handlers are named by how their states are called. -/
theorem eventFn_of_build {model : ModelDoc} (hbuild : model.build = .ok m) (hv : v ∈ m.states)
    (he : e ∈ m.eventsOf v) :
    m.eventFn v e = handlerFn (m.describe v) e := by
  have hlt := lt_size_of_mem_states (ModelDoc.assembled_of_build hbuild).isTree hv
  have hfinal : m.kind v ≠ .final := by
    intro hkind
    rw [eventsOf, ModelDoc.behaviorsOf_of_build hbuild hlt hkind, Text.mem_sortedSet] at he
    simp at he
  have hholds := holdsChildren_of_isState (isState_of_mem_states hv) hfinal
  rw [eventFn, stateName_of_holdsChildren hholds, handlerFn]

/-- In the machine of a document, members for handlers are named by how their states are called. -/
theorem eventVariant_of_build {model : ModelDoc} (hbuild : model.build = .ok m) (hv : v ∈ m.states)
    (he : e ∈ m.eventsOf v) : m.eventVariant v e = handlerMember (m.describe v) e :=
  congrArg pascalCase (eventFn_of_build hbuild hv he)

/-- The uses of names for a handler. -/
theorem handler_mem_uses (hv : v ∈ m.states) (he : e ∈ m.eventsOf v) :
    ⟨.function, m.eventFn v e, m.describe v ++ " (" ++ e ++ ")"⟩ ∈ m.uses ∧
      ⟨.handler, m.eventVariant v e, m.describe v ++ " (" ++ e ++ ")"⟩ ∈ m.uses :=
  ⟨mem_uses_of_mem_stateUses hv (by simp [stateUses, he]),
    mem_uses_of_mem_stateUses hv (by simp [stateUses, he])⟩

/-- In the machine of a document without collisions, the handlers of two events have the same
function, or the same member, exactly if they are the same handler or overlap. -/
theorem built_handlers_agree_iff {model : ModelDoc} (hbuild : model.build = .ok m)
    (hcollision : m.collision = none) (hv : v ∈ m.states) (he : e ∈ m.eventsOf v)
    (hw : w ∈ m.states) (hf : f ∈ m.eventsOf w) :
    (m.eventFn v e = m.eventFn w f ↔
        (v = w ∧ e = f) ∨ m.Overlaps FunctionsMeet v e w f ∨ m.Overlaps FunctionsMeet w f v e) ∧
      (m.eventVariant v e = m.eventVariant w f ↔
        (v = w ∧ e = f) ∨ m.Overlaps MembersMeet v e w f ∨ m.Overlaps MembersMeet w f v e) := by
  have htree := (ModelDoc.assembled_of_build hbuild).isTree
  have hdistinct := ModelDoc.distinct_of_build hbuild v (lt_size_of_mem_states htree hv) w
    (lt_size_of_mem_states htree hw)
  obtain ⟨hfn, hmember⟩ := handler_mem_uses hv he
  obtain ⟨hfn', hmember'⟩ := handler_mem_uses hw hf
  rw [eventFn_of_build hbuild hv he] at hfn ⊢
  rw [eventFn_of_build hbuild hw hf] at hfn' ⊢
  rw [eventVariant_of_build hbuild hv he] at hmember ⊢
  rw [eventVariant_of_build hbuild hw hf] at hmember' ⊢
  exact ⟨handler_eq_iff handlerFn handlerFn_eq_iff hcollision hdistinct hfn hfn',
    handler_eq_iff handlerMember handlerMember_eq_iff hcollision hdistinct hmember hmember'⟩

/-- A state without words, and one that is called as it is with a bracket behind it. -/
def unnamedModel : ModelDoc where
  name := "Unnamed"
  vertices := [
    .initial [{ target := some "?" }],
    .state "?" [{ triggers := ["b (c)"], target := some "? (b" }] [],
    .state "? (b" [{ triggers := ["c)"], target := some "?" }] []]

/-- Their handlers overlap, with the same member but different functions. -/
theorem unnamed_members_agree :
    ∃ m, unnamedModel.build = .ok m ∧ m.collision = none ∧
      m.eventVariant 2 "b (c)" = m.eventVariant 3 "c)" ∧
      m.eventFn 2 "b (c)" = "_b_c" ∧ m.eventFn 3 "c)" = "b_c" := by
  have hfacts : unnamedModel.build = .ok unnamedModel.skeleton.finish ∧
      unnamedModel.skeleton.finish.collision = none := by
    decide +kernel
  obtain ⟨hbuild, hcollision⟩ := hfacts
  have hagree :=
    (built_handlers_agree_iff (v := 2) (w := 3) (e := "b (c)") (f := "c)") hbuild hcollision
    (by decide +kernel) (by decide +kernel) (by decide +kernel) (by decide +kernel)).2
  have hoverlap : unnamedModel.skeleton.finish.Overlaps MembersMeet 2 "b (c)" 3 "c)" :=
    ⟨"b", by decide +kernel, by decide +kernel, .inr ⟨.inl (by decide +kernel), by decide +kernel⟩⟩
  exact ⟨_, hbuild, hcollision, hagree.mpr (.inr (.inl hoverlap)), by decide +kernel⟩

/-- A state, and one that is called as it is with a bracket behind it. -/
def pairsModel : ModelDoc where
  name := "Pairs"
  vertices := [
    .initial [{ target := some "A" }],
    .state "A" [{ triggers := ["b (c)"], target := some "A (b" }] [],
    .state "A (b" [{ triggers := ["c)"], target := some "A" }] []]

/-- No collision is found and a file is given, although two handlers have the same function
and the same member. -/
theorem pairs_handlers_agree :
    ∃ m, pairsModel.build = .ok m ∧ m.collision = none ∧ (m.generate {}).toOption.isSome ∧
      2 ∈ m.states ∧ "b (c)" ∈ m.eventsOf 2 ∧ 3 ∈ m.states ∧ "c)" ∈ m.eventsOf 3 ∧
      m.eventFn 2 "b (c)" = m.eventFn 3 "c)" ∧
      m.eventVariant 2 "b (c)" = m.eventVariant 3 "c)" := by
  refine ⟨pairsModel.skeleton.finish, ?_⟩
  decide +kernel

end Machine

end Statechart
