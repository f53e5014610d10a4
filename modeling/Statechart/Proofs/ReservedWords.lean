import Statechart.Proofs.HandlerNames
import Statechart.Proofs.NameShapes
import Statechart.Proofs.References

/-!
# Reserved words

Nothing keeps a state or an event from being called like a word that generated code cannot use as a
name. Still such words are almost never declared: members start with a capital and functions have an
underscore in them, and reserved words do neither, with two exceptions. What is called `self` gets
the member `Self`, and an event without any word in a state without any word gets the function `_`.
-/

namespace Statechart.Naming

variable {c : Char} {s : String} {ws : List (List Char)}

/-- The words that cannot be declared in generated code: keywords, words that may become
keywords, and the underscore that stands for no name. Words that are special in some places
only can be declared. -/
def reservedWords : List String :=
  ["as", "async", "await", "break", "const", "continue", "crate", "dyn", "else", "enum", "extern",
    "false", "fn", "for", "if", "impl", "in", "let", "loop", "match", "mod", "move", "mut", "pub",
    "ref", "return", "self", "Self", "static", "struct", "super", "trait", "true", "type", "unsafe",
    "use", "where", "while", "abstract", "become", "box", "do", "final", "gen", "macro", "override",
    "priv", "try", "typeof", "unsized", "virtual", "yield", "_"]

/-- Of the reserved words, one starts with a capital. -/
theorem mem_reservedWords_of_isMemberName (h : IsMemberName s) :
    s ∈ reservedWords ↔ s = "Self" := by
  have hwords : ∀ word ∈ reservedWords, word.toList.head?.any Char.isUpper = true →
    word = "Self" := by decide
  constructor
  · intro hmem
    obtain ⟨c, rest, hs, hc, -⟩ := h
    exact hwords s hmem (by rw [hs, List.head?_cons, Option.any_some, hc])
  · rintro rfl
    decide

/-- Of the reserved words, one has an underscore in it. -/
theorem mem_reservedWords_of_underscore (h : '_' ∈ s.toList) : s ∈ reservedWords ↔ s = "_" := by
  have hwords : ∀ word ∈ reservedWords, word.toList.contains '_' = true → word = "_" := by decide
  constructor
  · intro hmem
    exact hwords s hmem (List.contains_iff_mem.mpr h)
  · rintro rfl
    decide

/-! ## The member `Self` -/

/-- A capitalised letter or digit is not in lower case, and it is the first one of `Self` only for
that of `self`. -/
theorem isLower_toUpper (h : isSnakeChar c) (hc : c ≠ '_') :
    c.toUpper.isLower = false ∧ (c.toUpper = 'S' → c = 's') :=
  of_isPlainChar (fun c => isSnakeChar c → c ≠ '_' → c.toUpper.isLower = false ∧
    (c.toUpper = 'S' → c = 's'))
    (by decide +kernel) (isPlainChar_of_isSnakeChar h) h hc

/-- Capital first letters make `Self` of one word only. -/
theorem capitals_eq_self_iff (h : ∀ word ∈ ws, word ≠ [] ∧ ∀ c ∈ word, isSnakeChar c ∧ c ≠ '_') :
    capitals ws = "Self".toList ↔ ws = ["self".toList] := by
  have hfirst : ∀ word ∈ ws, ∃ c rest, word = c :: rest ∧ isSnakeChar c ∧ c ≠ '_' := by
    intro word hword
    obtain ⟨c, rest, rfl⟩ := List.exists_cons_of_ne_nil (h word hword).1
    exact ⟨c, rest, rfl, (h _ hword).2 c List.mem_cons_self⟩
  constructor
  · intro hcapitals
    cases ws with
    | nil => cases hcapitals
    | cons word rest =>
      rw [List.forall_mem_cons] at hfirst
      obtain ⟨⟨c, word, rfl, hsnake, hc⟩, hmore⟩ := hfirst
      obtain ⟨hcapital, hbehind⟩ : c.toUpper = 'S' ∧ word ++ capitals rest = "elf".toList :=
        List.cons.inj hcapitals
      -- a second word would bring in a second capital or a digit
      have hrest : rest = [] := by
        cases rest with
        | nil => rfl
        | cons second others =>
          obtain ⟨d, second, rfl, hsnake, hd⟩ := hmore _ List.mem_cons_self
          have hlower : "elf".toList.all Char.isLower = true := by decide
          have hmem : d.toUpper ∈ "elf".toList := by
            rw [← hbehind]
            simp [capitals, capitalize]
          cases (isLower_toUpper hsnake hd).1.symm.trans (List.all_eq_true.mp hlower _ hmem)
      rw [hrest, capitals, List.flatMap_nil, List.append_nil] at hbehind
      rw [(isLower_toUpper hsnake hc).2 hcapital, hbehind, hrest]
      rfl
  · rintro rfl
    rfl

/-- The member for a name is `Self` exactly if `self` is the only piece of the name. -/
theorem NamePart.pascalCase_eq_self_iff (h : NamePart s) :
    pascalCase s = "Self" ↔ pieces s.toList = ["self".toList] := by
  have hpieces : ∀ word ∈ pieces s.toList, word ≠ [] ∧ ∀ c ∈ word, isSnakeChar c ∧ c ≠ '_' := by
    intro word hword
    refine ⟨ne_nil_of_mem_pieces hword, fun c hc => ⟨h.chars c (mem_of_mem_pieces hword hc), ?_⟩⟩
    rintro rfl
    exact not_mem_of_mem_pieces hword hc
  rw [← capitals_eq_self_iff hpieces, ← joinCapitals_eq_capitals, ← String.toList_inj, pascalCase,
    String.toList_ofList, pascalChars]
  split
  · next hnil =>
    rw [hnil]
    decide
  · rfl

/-- A canonical text is given by its pieces. -/
theorem Canonical.pieces_inj {t : String} (hs : Canonical s) (ht : Canonical t) :
    pieces s.toList = pieces t.toList ↔ s = t := by
  have hjoin {s : String} (h : Canonical s) : join (pieces s.toList) = s.toList := by
    rw [← trimBy_collapse, collapse_of_single h.single, h.trimBy_eq_self]
  constructor
  · intro heq
    rw [← String.toList_inj, ← hjoin hs, heq, hjoin ht]
  · rintro rfl
    rfl

/-- The empty text is canonical. -/
theorem canonical_empty : Canonical "" := canonical_identifier ""

/-- The word that becomes `Self` is canonical. -/
theorem canonical_self : Canonical "self" := canonical_identifier "self"

/-- The member for a name is a reserved word exactly if the name is `self`. -/
theorem Canonical.pascalCase_mem_reservedWords (h : Canonical s) :
    pascalCase s ∈ reservedWords ↔ s = "self" := by
  rw [mem_reservedWords_of_isMemberName h.namePart.isMemberName, h.namePart.pascalCase_eq_self_iff,
    ← h.pieces_inj canonical_self]
  rfl

end Statechart.Naming

namespace Statechart.Machine

open Naming Stmt

variable {m : Machine} {v : Nat} {event word : String} {config : Config} {text : String}

/-- Whether the vertex is a state that has been given a name with the given identifier. -/
def IsCalled (m : Machine) (v : Nat) (word : String) : Prop :=
  ∃ name, m.kind v = .state name ∧ identifier name = word

/-- Only a name of its own leaves a state without any piece, or with `self` as the only one. -/
theorem pieces_stateName_eq_iff (hword : word = "" ∨ word = "self") (hv : (m.kind v).isState) :
    pieces (m.stateName v).toList = pieces word.toList ↔ m.IsCalled v word := by
  have hlast : (pieces word.toList).getLast? ≠ some "final".toList ∧
      pieces word.toList ≠ pieces "root".toList := by
    rcases hword with rfl | rfl <;> decide
  have hcanonical : Canonical word := by
    rcases hword with rfl | rfl
    · exact canonical_empty
    · exact canonical_self
  rw [stateName_eq, IsCalled]
  cases hkind : m.kind v with
  | root name => simpa using hlast.2.symm
  | state name => simpa using (canonical_identifier name).pieces_inj hcanonical
  | final =>
    have hpieces (front : String) : pieces (front ++ "_final").toList =
        pieces front.toList ++ ["final".toList] := by
      rw [String.toList_append]
      exact pieces_append _ _
    rw [hpieces]
    constructor
    · intro heq
      rw [← heq] at hlast
      simp at hlast
    · rintro ⟨name, hname, -⟩
      cases hname
  | initial | point =>
    rw [hkind] at hv
    cases hv

/-- The pieces of the function for an event are those of the state and those of the event. -/
theorem pieces_eventFn (m : Machine) (v : Nat) (event : String) :
    pieces (m.eventFn v event).toList = pieces (m.stateName v).toList ++
    pieces (identifier event).toList := by
  rw [eventFn, String.append_assoc, String.toList_append, String.toList_append]
  exact pieces_append _ _

/-- The member for a state is a reserved word exactly if the state is called `self`. -/
theorem stateMember_mem_reservedWords (hv : (m.kind v).isState) :
    m.stateMember v ∈ reservedWords ↔ m.IsCalled v "self" := by
  have hpart := m.namePart_stateName v
  rw [stateMember, mem_reservedWords_of_isMemberName hpart.isMemberName,
    hpart.pascalCase_eq_self_iff, ← pieces_stateName_eq_iff (.inr rfl) hv]
  rfl

/-- The member for a handler is a reserved word exactly if one of its state and its event is called
`self` and the other is without any word. -/
theorem routineVariant_mem_reservedWords {r : Routine} (hr : r ∈ m.handlers) :
    m.routineVariant r ∈ reservedWords ↔ ∃ v event, r = .event v event ∧
      (m.IsCalled v "" ∧ identifier event = "self" ∨ m.IsCalled v "self" ∧
        identifier event = "") := by
  have hpart := (m.namePart_routineName r).1
  rw [routineVariant, mem_reservedWords_of_isMemberName hpart.isMemberName,
    hpart.pascalCase_eq_self_iff]
  obtain ⟨v, hv, hr⟩ := List.mem_flatMap.mp hr
  rcases List.mem_cons.mp hr with rfl | hr
  · have hexit : pieces (m.exitFn v).toList = pieces (m.stateName v).toList ++ ["exit".toList] := by
      rw [exitFn, String.toList_append]
      exact pieces_append _ _
    rw [routineName, hexit, List.append_eq_singleton_iff]
    simp
  · obtain ⟨event, -, rfl⟩ := List.mem_map.mp hr
    have hstate := isState_of_mem_states hv
    have hevent := canonical_identifier event
    rw [routineName, pieces_eventFn, List.append_eq_singleton_iff]
    change pieces _ = pieces "".toList ∧ pieces _ = pieces "self".toList ∨
      pieces _ = pieces "self".toList ∧ pieces _ = pieces "".toList ↔ _
    rw [pieces_stateName_eq_iff (.inl rfl) hstate, pieces_stateName_eq_iff (.inr rfl) hstate,
      hevent.pieces_inj canonical_empty, hevent.pieces_inj canonical_self]
    simp

/-- The function of a routine has an underscore in its name, and nothing else exactly if it handles
an event without any word in a state without any word. -/
theorem routineName_mem_reservedWords {r : Routine} (hr : r ∈ m.declaredFunctions) :
    m.routineName r ∈ reservedWords ↔ ∃ v event, r = .event v event ∧ m.IsCalled v "" ∧
      identifier event = "" := by
  have hmem : '_' ∈ (m.routineName r).toList := by
    cases r <;> simp [routineName, enterFn, exitFn, eventFn, pseudoFn]
  have hlong {front back : String} (hback : 1 < back.length) : front ++ back ≠ "_" := by
    intro heq
    have hlength := congrArg String.length heq
    rw [String.length_append, show "_".length = 1 from rfl] at hlength
    omega
  rw [mem_reservedWords_of_underscore hmem]
  obtain ⟨v, hv, hr⟩ := List.mem_flatMap.mp hr
  cases r with
  | enter w => simpa [routineName, enterFn] using hlong (by decide)
  | exit w => simpa [routineName, exitFn] using hlong (by decide)
  | shared p => simpa [routineName, pseudoFn] using hlong (by decide)
  | event w event =>
    obtain rfl : v = w := by
      simp only [List.mem_append, List.mem_cons, List.mem_map, reduceCtorEq, and_false,
        exists_false, or_false, false_or, Routine.event.injEq] at hr
      obtain ⟨-, -, hvw, -⟩ := hr
      exact hvw
    rw [routineName]
    constructor
    · intro heq
      have hpieces : pieces (m.eventFn v event).toList = pieces "".toList := by
        rw [heq]
        rfl
      obtain ⟨hstate, hevent⟩ :=
        List.append_eq_nil_iff.mp ((m.pieces_eventFn v event).symm.trans hpieces)
      exact ⟨v, event, rfl,
        (pieces_stateName_eq_iff (.inl rfl) (isState_of_mem_states hv)).mp hstate,
        ((canonical_identifier event).pieces_inj canonical_empty).mp hevent⟩
    · rintro ⟨v, event, hr, ⟨name, hkind, hname⟩, hevent⟩
      obtain ⟨rfl, rfl⟩ := Routine.event.inj hr
      rw [eventFn, stateName_eq, hkind, hevent]
      dsimp only
      rw [hname]
      rfl

/-! ## Functions that every machine has -/

/-- The name of the function that the text in front of a block declares, if it declares one. -/
def functionName? (front : String) : Option String :=
  let cs := front.toList
  let cs := ("pub ".toList.isPrefixOf? cs).getD cs
  ("fn ".toList.isPrefixOf? cs).map fun rest => String.ofList (rest.takeWhile (· != '('))

/-- The functions that every machine has. -/
theorem filterMap_functionName? (m : Machine) (config : Config) :
    (m.typeFronts config ++ ("impl " ++ m.typeName) :: m.functionFronts).filterMap functionName? =
      "default" :: fixedFns := by
  unfold typeFronts functionFronts
  cases config.hasVars <;>
    simp [functionName?, List.isPrefixOf?, fixedFns, exitUpToFn, callHandlerFn]

/-- What a file declares: the members of its enumerations, the functions of routines, its type, and
the functions that every machine has. -/
structure NamedIn (m : Machine) (code : List Stmt) : Prop extends m.DeclaredIn code where
  type : "pub struct " ++ m.typeName ∈ fronts code
  fixed : (fronts code).filterMap functionName? = "default" :: fixedFns

/-- A generated file has its declarations where they are looked for. -/
theorem namedIn_of_generate (h : m.generate config = .ok text) :
    ∃ vars, config.autoVars = .ok vars ∧
      ((m.compiler (Config.expanderFor vars) {}).file config vars).render m {} config.style =
        .ok text ∧
      m.NamedIn ((m.compiler (Config.expanderFor vars) {}).file config vars).code := by
  rw [generate] at h
  split at h
  · next expander _ hexpander =>
    obtain ⟨vars, hvars, hrender⟩ := render_of_generateWith h
    rw [Config.expander, hvars] at hexpander
    obtain rfl : Config.expanderFor vars = expander := Except.ok.inj hexpander
    have hfault := fault_functions_of_generateWith h
    have hfronts : fronts ((m.compiler (Config.expanderFor vars) {}).file config vars).code =
        m.typeFronts config ++ ("impl " ++ m.typeName) :: m.functionFronts :=
          Compiler.fronts_file hfault
    refine ⟨vars, hvars, hrender, Compiler.declaredIn_file vars rfl hfault, ?_, ?_⟩
    · rw [hfronts]
      simp [typeFronts]
    · rw [hfronts]
      exact m.filterMap_functionName? config
  · cases h
  · cases h

/-- The names in a generated file are no reserved words, but for what is called `self` or without
any word: members are reserved exactly if they are `Self`, and functions exactly if they are a
single underscore. -/
theorem reserved_only_by_self_or_no_word (htext : m.generate config = .ok text) :
    (∃ vars, config.autoVars = .ok vars ∧
      ((m.compiler (Config.expanderFor vars) {}).file config vars).render m {} config.style =
        .ok text ∧
      m.NamedIn ((m.compiler (Config.expanderFor vars) {}).file config vars).code) ∧
    (m.typeName ∈ reservedWords ↔ identifier m.name = "self") ∧
    (∀ v ∈ m.states, m.stateMember v ∈ reservedWords ↔ m.IsCalled v "self") ∧
    (∀ event ∈ m.events, eventMember event ∈ reservedWords ↔ identifier event = "self") ∧
    (∀ r ∈ m.handlers, m.routineVariant r ∈ reservedWords ↔ ∃ v event, r = .event v event ∧
      (m.IsCalled v "" ∧ identifier event = "self" ∨ m.IsCalled v "self" ∧ identifier event = "")) ∧
    (∀ r ∈ m.declaredFunctions, m.routineName r ∈ reservedWords ↔
      ∃ v event, r = .event v event ∧ m.IsCalled v "" ∧ identifier event = "") ∧
    ∀ name ∈ "default" :: fixedFns, name ∉ reservedWords := by
  refine ⟨namedIn_of_generate htext, ?_, ?_, ?_, ?_, ?_, ?_⟩
  · exact (canonical_identifier m.name).pascalCase_mem_reservedWords
  · exact fun v hv => stateMember_mem_reservedWords (isState_of_mem_states hv)
  · exact fun event _ => (canonical_identifier event).pascalCase_mem_reservedWords
  · exact fun r hr => routineVariant_mem_reservedWords hr
  · exact fun r hr => routineName_mem_reservedWords hr
  · decide

/-- A machine with a state and an event called `self`, and a state and an event without any word. -/
def mirror : Machine :=
  (new "Mirror").addVertex root .initial
    |>.addVertex root (.state "self")
    |>.addVertex root (.state "?")
    |>.addBehavior 1 { target := some 2 }
    |>.addBehavior 3 { triggers := ["self", "!"] }

/-- A file is generated for the mirror, with reserved words for a state, an event, a
handler and a function. -/
theorem mirror_declares_reserved_words :
    (∃ text, mirror.generate {} = .ok text) ∧
      (∃ v ∈ mirror.states, mirror.stateMember v ∈ reservedWords) ∧
      (∃ event ∈ mirror.events, eventMember event ∈ reservedWords) ∧
      (∃ r ∈ mirror.handlers, mirror.routineVariant r ∈ reservedWords) ∧
      ∃ r ∈ mirror.declaredFunctions, mirror.routineName r ∈ reservedWords := by
  refine ⟨exists_eq_ok (by decide +kernel), ⟨2, ?_, ?_⟩, ⟨"self", ?_, ?_⟩,
    ⟨.event 3 "self", ?_, ?_⟩, ⟨.event 3 "!", ?_, ?_⟩⟩ <;> decide +kernel

/-- The names of the mirror that are reserved come from what is called `self` and what has no word;
its other names are not reserved. -/
theorem mirror_reserved_only_by_self_or_no_word :
    (∃ text, mirror.generate {} = .ok text) ∧ mirror.typeName ∉ reservedWords ∧
      (mirror.stateMember 2 ∈ reservedWords ∧ mirror.stateMember 3 ∉ reservedWords) ∧
      (mirror.routineVariant (.event 3 "self") ∈ reservedWords ∧
        mirror.routineVariant (.exit 2) ∉ reservedWords) ∧
      mirror.routineName (.event 3 "!") ∈ reservedWords ∧
      mirror.routineName (.enter 3) ∉ reservedWords := by
  obtain ⟨text, htext⟩ : ∃ text, mirror.generate {} = .ok text := exists_eq_ok (by decide +kernel)
  obtain ⟨-, htype, hstates, -, hhandlers, hfunctions, -⟩ := reserved_only_by_self_or_no_word htext
  have hself : mirror.IsCalled 2 "self" := ⟨"self", rfl, by decide⟩
  have hempty : mirror.IsCalled 3 "" := ⟨"?", rfl, by decide⟩
  refine ⟨⟨text, htext⟩, fun hmem => ?_,
    ⟨(hstates 2 (by decide +kernel)).mpr hself, fun hmem => ?_⟩,
    ⟨(hhandlers _ (by decide +kernel)).mpr ⟨3, "self", rfl, .inl ⟨hempty, by decide⟩⟩,
      fun hmem => ?_⟩, (hfunctions _ (by decide +kernel)).mpr ⟨3, "!", rfl, hempty, by decide⟩,
      fun hmem => ?_⟩
  · exact absurd (htype.mp hmem) (by decide)
  · obtain ⟨name, hkind, hname⟩ := (hstates 3 (by decide +kernel)).mp hmem
    obtain rfl : "?" = name := Kind.state.inj hkind
    exact absurd hname (by decide)
  · obtain ⟨v, event, hr, -⟩ := (hhandlers _ (by decide +kernel)).mp hmem
    cases hr
  · obtain ⟨v, event, hr, -⟩ := (hfunctions _ (by decide +kernel)).mp hmem
    cases hr

end Statechart.Machine
