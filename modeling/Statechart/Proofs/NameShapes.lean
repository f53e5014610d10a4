import Statechart.Code.Stmt
import Statechart.Proofs.Renaming.Names
import Statechart.Proofs.Trimming
import Statechart.Proofs.Words

/-!
# The shape of generated names

An identifier is made of words in lower case with one underscore between any two, and does not start
with a digit. A text of this shape is its own identifier. Functions are named by identifiers and
fixed words with underscores between them, and members by capitalising such names, so that functions
start with a letter or an underscore and members with a capital.
-/

namespace Statechart.Naming

variable {c : Char} {cs : List Char} {s : String} {ws : List (List Char)}

/-! ## Characters of names -/

/-- Whether the character may stand in an identifier in lower case. -/
def isSnakeChar (c : Char) : Bool := c.isLower || c.isDigit || c == '_'

/-- Characters that identifiers hold are found among the first code points. -/
theorem of_isPlainChar (holds : Char → Prop)
    (hall : ∀ n ∈ List.range 128, isPlainChar (Char.ofNat n) → holds (Char.ofNat n))
    (h : isPlainChar c) : holds c := by
  have hlt : c.toNat < 128 := by
    change (((decide ('A'.val ≤ c.val ∧ c.val ≤ 'Z'.val) ||
      (decide ('a'.val ≤ c.val) && decide (c.val ≤ 'z'.val))) ||
      (decide ('0'.val ≤ c.val) && decide (c.val ≤ '9'.val))) || c == '_') = true at h
    simp only [Bool.or_eq_true, Bool.and_eq_true, decide_eq_true_eq, UInt32.le_iff_toNat_le,
      beq_iff_eq] at h
    rcases h with ((⟨-, h⟩ | ⟨-, h⟩) | ⟨-, h⟩) | rfl
    · exact Nat.lt_of_le_of_lt h (by decide)
    · exact Nat.lt_of_le_of_lt h (by decide)
    · exact Nat.lt_of_le_of_lt h (by decide)
    · decide
  exact Text.of_mem_codes (fun c => isPlainChar c → holds c) hall (List.mem_range.mpr hlt) h

/-- Characters of identifiers in lower case stand in identifiers. -/
theorem isPlainChar_of_isSnakeChar (h : isSnakeChar c) : isPlainChar c := by
  change ((c.isUpper || c.isLower || c.isDigit) || c == '_') = true
  change ((c.isLower || c.isDigit) || c == '_') = true at h
  grind

/-- In lower case, a character that identifiers hold is one that identifiers in lower case hold. -/
theorem all_lowerChar (h : isPlainChar c) : (Text.lowerChar c).all isSnakeChar = true :=
  of_isPlainChar (fun c => (Text.lowerChar c).all isSnakeChar = true) (by decide +kernel) h

/-- Characters of identifiers in lower case are no capitals, no white space and
their own lower case. -/
theorem lower_of_isSnakeChar (h : isSnakeChar c) :
    Text.isUpper c = false ∧ Text.isWhite c = false ∧ Text.lowerChar c = [c] :=
  of_isPlainChar (fun c => isSnakeChar c → Text.isUpper c = false ∧ Text.isWhite c = false ∧
    Text.lowerChar c = [c])
    (by decide +kernel) (isPlainChar_of_isSnakeChar h) h

/-- A letter or digit of an identifier stays one if it is capitalised, and a letter
becomes a capital. -/
theorem toUpper_of_isSnakeChar (h : isSnakeChar c) (hc : c ≠ '_') :
    c.isAlphanum ∧ c.toUpper.isAlphanum ∧ (c.isDigit = false → c.toUpper.isUpper) :=
  of_isPlainChar (fun c => isSnakeChar c → c ≠ '_' → c.isAlphanum ∧ c.toUpper.isAlphanum ∧
    (c.isDigit = false → c.toUpper.isUpper)) (by decide +kernel) (isPlainChar_of_isSnakeChar h) h hc

/-! ## Canonical texts -/

/-- A text with words in lower case and single underscores between them, which does not
start with a digit. -/
structure Canonical (s : String) : Prop where
  chars : ∀ c ∈ s.toList, isSnakeChar c
  first : ∀ c ∈ s.toList.head?, c ≠ '_' ∧ c.isDigit = false
  last : s.toList.getLast? ≠ some '_'
  single : ¬ ['_', '_'] <:+: s.toList

/-- Joined pieces have the characters of the pieces, underscores apart. -/
theorem mem_join (hc : c ≠ '_') : c ∈ join ws ↔ ∃ w ∈ ws, c ∈ w := by
  induction ws with
  | nil => simp [join]
  | cons w rest ih =>
    by_cases hrest : rest = []
    · simp [hrest, join]
    · rw [join] at ih
      rw [join, List.intercalate_cons_of_ne_nil hrest]
      simp [ih, hc]

/-- The pieces of a text consist of its characters. -/
theorem mem_of_mem_pieces {piece : List Char} (h : piece ∈ pieces cs) (hc : c ∈ piece) :
    c ∈ cs := by
  have hne : c ≠ '_' := fun heq => not_mem_of_mem_pieces h (heq ▸ hc)
  have hsplit : piece ∈ cs.splitOn '_' := (List.mem_filter.mp h).1
  have hjoin : join (cs.splitOn '_') = cs := List.intercalate_splitOn '_'
  rw [← hjoin]
  exact (mem_join hne).mpr ⟨piece, hsplit, hc⟩

/-- Splitting words leaves characters that identifiers in lower case hold. -/
theorem isSnakeChar_of_mem_splitWords {previous : Option Char} (h : ∀ c ∈ cs, isPlainChar c)
    (hc : c ∈ splitWords previous cs) : isSnakeChar c := by
  induction cs generalizing previous with
  | nil => cases hc
  | cons d rest ih =>
    rw [List.forall_mem_cons] at h
    rw [splitWords, List.mem_append, List.mem_append] at hc
    rcases hc with (hc | hc) | hc
    · have hunderscore : c = '_' := by
        split at hc
        · exact List.mem_singleton.mp hc
        · cases hc
      rw [hunderscore]
      decide
    · exact List.all_eq_true.mp (all_lowerChar h.1) c hc
    · exact ih h.2 hc

/-- The words of a string are in lower case. -/
theorem isSnakeChar_of_mem_words {word : List Char} (h : word ∈ words s) (hc : c ∈ word) :
    isSnakeChar c := by
  have hplain : ∀ c ∈ s.toList.map plain, isPlainChar c := by
    intro c hc
    obtain ⟨d, -, rfl⟩ := List.mem_map.mp hc
    rw [plain]
    split
    · assumption
    · decide
  exact isSnakeChar_of_mem_splitWords hplain (mem_of_mem_pieces h hc)

/-- Spelled words start with a letter, and are in lower case if the words are. -/
theorem isSnakeChar_of_mem_spelled (hws : ∀ word ∈ ws, ∀ c ∈ word, isSnakeChar c) {word : List Char}
    (h : word ∈ spelled ws) (hc : c ∈ word) : isSnakeChar c := by
  unfold spelled at h
  split at h
  · rw [List.forall_mem_cons] at hws
    rcases List.mem_cons.mp h with rfl | h
    · split at hc
      · rcases List.mem_cons.mp hc with rfl | hc
        · decide
        · exact hws.1 c hc
      · exact hws.1 c hc
    · exact hws.2 word h c hc
  · exact hws word h c hc

/-- Spelled words do not start with a digit. -/
theorem startsWithDigit_spelled (ws : List (List Char)) : startsWithDigit (spelled ws) = false := by
  cases ws with
  | nil => rfl
  | cons word rest =>
    cases word with
    | nil => rfl
    | cons c word =>
      rw [spelled]
      by_cases hc : c.isDigit
      · rw [if_pos hc]
        rfl
      · rw [if_neg hc, startsWithDigit]
        simpa using hc

/-- Every underscore in joined words has characters before and behind it, and the
one before is none. -/
theorem Wordy.of_join_eq (h : Wordy ws) {before after : List Char}
    (heq : join ws = before ++ '_' :: after) :
    before ≠ [] ∧ after ≠ [] ∧ before.getLast? ≠ some '_' := by
  have hne : ws ≠ [] := by
    rintro rfl
    simp [join] at heq
  -- the words on either side are those that the two sides split into
  have hws : before.splitOn '_' ++ after.splitOn '_' = ws := by
    rw [← List.splitOn_append_cons_self, ← heq, join,
      List.splitOn_intercalate '_' (fun w hw => (h w hw).2) hne]
  have hnil : [] ∉ before.splitOn '_' ∧ [] ∉ after.splitOn '_' := by
    rw [← not_or, ← List.mem_append, hws]
    exact fun hmem => (h [] hmem).1 rfl
  refine ⟨?_, ?_, ?_⟩
  · rintro rfl
    exact hnil.1 (by simp)
  · rintro rfl
    exact hnil.2 (by simp)
  · intro hlast
    obtain ⟨front, rfl⟩ := List.getLast?_eq_some_iff.mp hlast
    rw [List.splitOn_append_cons_self] at hnil
    exact hnil.1 (by simp)

/-- Joined words start with the first letter of the first word. -/
theorem Wordy.head?_join (h : Wordy ws) (hdigit : startsWithDigit ws = false) :
    ∀ c ∈ (join ws).head?, c ≠ '_' ∧ c.isDigit = false := by
  intro c hc
  cases ws with
  | nil => cases hc
  | cons word rest =>
    rw [Wordy, List.forall_mem_cons] at h
    cases word with
    | nil => exact absurd rfl h.1.1
    | cons d word =>
      have hjoin : join ((d :: word) :: rest) = d :: join (word :: rest) :=
        join_cons_append [d] word rest
      rw [hjoin, List.head?_cons, Option.mem_some] at hc
      rw [← hc]
      exact ⟨fun heq => h.1.2 (heq ▸ List.mem_cons_self), hdigit⟩

/-- Identifiers are canonical. -/
theorem canonical_identifier (s : String) : Canonical (identifier s) := by
  have hwordy : Wordy (spelled (words s)) := (wordy_words s).spelled
  constructor
  · rw [toList_identifier]
    intro c hc
    by_cases hne : c = '_'
    · rw [hne]
      decide
    · obtain ⟨word, hword, hmem⟩ := (mem_join hne).mp hc
      exact isSnakeChar_of_mem_spelled (fun _ hword _ => isSnakeChar_of_mem_words hword) hword hmem
  · rw [toList_identifier]
    exact hwordy.head?_join (startsWithDigit_spelled _)
  · rw [toList_identifier]
    intro hlast
    obtain ⟨front, hfront⟩ := List.getLast?_eq_some_iff.mp hlast
    exact (hwordy.of_join_eq hfront).2.1 rfl
  · rw [toList_identifier]
    rintro ⟨before, after, heq⟩
    have hsplit : join (spelled (words s)) = (before ++ ['_']) ++ '_' :: after := by
      rw [← heq]
      simp
    exact (hwordy.of_join_eq hsplit).2.2 (by simp)

/-- There is nothing to collapse where no two underscores follow each other. -/
theorem collapse_of_single (h : ¬ ['_', '_'] <:+: cs) : collapse cs = cs := by
  induction cs with
  | nil => rfl
  | cons c rest ih =>
    have hnot : ¬ (c == '_' && rest.head? == some '_') = true := by
      intro hboth
      rw [Bool.and_eq_true, beq_iff_eq, beq_iff_eq] at hboth
      obtain ⟨more, hmore⟩ := List.head?_eq_some_iff.mp hboth.2
      exact h ⟨[], more, by rw [hboth.1, hmore]; rfl⟩
    rw [collapse, if_neg hnot, ih fun hrest => h (hrest.trans (List.suffix_cons c rest).isInfix)]

/-- Without capitals no word starts anew. -/
theorem splitWords_of_isSnakeChar (previous : Option Char) (h : ∀ c ∈ cs, isSnakeChar c) :
    splitWords previous cs = cs := by
  induction cs generalizing previous with
  | nil => rfl
  | cons c rest ih =>
    rw [List.forall_mem_cons] at h
    obtain ⟨hupper, -, hlower⟩ := lower_of_isSnakeChar h.1
    have hstart : startsWord previous c rest.head? = false := by
      rw [startsWord, hupper, Bool.false_and]
    rw [splitWords, hstart, hlower, ih (some c) h.2]
    rfl

/-- Sanitizing leaves a canonical text alone. -/
theorem sanitizeChars_of_canonical (h : Canonical s) : sanitizeChars s.toList = s.toList := by
  have htrim : Text.trimChars s.toList = s.toList := by
    refine Text.trimBy_eq_self_iff.mpr ⟨fun c hc => ?_, fun c hc => ?_⟩
    · exact (lower_of_isSnakeChar (h.chars c (List.mem_of_mem_head? hc))).2.1
    · exact (lower_of_isSnakeChar (h.chars c (List.mem_of_mem_getLast? hc))).2.1
  have hplain : s.toList.map (fun c => if isPlainChar c then c else '_') = s.toList.map id :=
    List.map_congr_left fun c hc => if_pos (isPlainChar_of_isSnakeChar (h.chars c hc))
  have hfirst := h.first
  rw [sanitizeChars, htrim, hplain, List.map_id]
  split
  · next c rest hcs => rw [if_neg (by simp [(hfirst c (by rw [hcs]; rfl)).2])]
  · rfl

/-- A canonical text has no underscores on its sides. -/
theorem Canonical.trimBy_eq_self (h : Canonical s) :
    Text.trimBy (· == '_') s.toList = s.toList := by
  refine Text.trimBy_eq_self_iff.mpr ⟨fun c hc => ?_, fun c hc => ?_⟩
  · simpa using (h.first c hc).1
  · have hne : c ≠ '_' := by
      rintro rfl
      exact h.last hc
    simpa using hne

/-- A canonical text is its own identifier. -/
theorem identifier_of_canonical (h : Canonical s) : identifier s = s := by
  have hsnake : snakeChars s.toList = s.toList := by
    have hfirst := h.first
    rw [snakeChars, splitWords_of_isSnakeChar none h.chars, collapse_of_single h.single,
      h.trimBy_eq_self]
    split
    · next c rest hcs => rw [if_neg (by simp [(hfirst c (by rw [hcs]; rfl)).2])]
    · rfl
  rw [identifier, snakeCase, sanitize, String.toList_ofList, sanitizeChars_of_canonical h, hsnake,
    String.ofList_toList]

/-! ## Functions and members -/

/-- The name starts with a letter in lower case or an underscore and goes on with such letters,
digits and underscores. -/
def IsFunctionName (name : String) : Prop :=
  ∃ c rest, name.toList = c :: rest ∧ (c.isLower ∨ c = '_') ∧ ∀ d ∈ rest, isSnakeChar d

/-- The name starts with a capital and goes on with letters and digits. -/
def IsMemberName (name : String) : Prop :=
  ∃ c rest, name.toList = c :: rest ∧ c.isUpper ∧ ∀ d ∈ rest, d.isAlphanum

/-- A text in lower case whose first character other than an underscore is no digit. Names are put
together from such texts. -/
structure NamePart (s : String) : Prop where
  chars : ∀ c ∈ s.toList, isSnakeChar c
  first : ∀ c ∈ (s.toList.dropWhile (· == '_')).head?, c.isDigit = false

instance (s : String) : Decidable (NamePart s) :=
  decidable_of_iff (s.toList.all isSnakeChar = true ∧
    (s.toList.dropWhile (· == '_')).head?.all (fun c => !c.isDigit) = true)
    ⟨fun h => ⟨by simpa using h.1, by simpa [Option.all_eq_true] using h.2⟩,
      fun h => ⟨by simpa using h.chars, by simpa [Option.all_eq_true] using h.first⟩⟩

/-- Behind leading underscores a text in two pieces starts as the first piece does, or
else as the second. -/
theorem head?_dropWhile_append (a b : List Char) : ((a ++ b).dropWhile (· == '_')).head? =
    (a.dropWhile (· == '_')).head?.or (b.dropWhile (· == '_')).head? := by
  rw [List.dropWhile_append]
  cases a.dropWhile (· == '_') <;> rfl

namespace NamePart

variable {t : String}

/-- Two parts of names make one. -/
theorem append (hs : NamePart s) (ht : NamePart t) : NamePart (s ++ t) where
  chars := by
    rw [String.toList_append, List.forall_mem_append]
    exact ⟨hs.chars, ht.chars⟩
  first c hc := by
    rw [String.toList_append, head?_dropWhile_append, Option.mem_def, Option.or_eq_some_iff] at hc
    rcases hc with hc | ⟨-, hc⟩
    · exact hs.first c hc
    · exact ht.first c hc

/-- The front of a part of a name is one. -/
theorem of_front (hs : NamePart s) (h : t.toList <+: s.toList) : NamePart t where
  chars c hc := hs.chars c (h.subset hc)
  first c hc := by
    obtain ⟨rest, hrest⟩ := h
    refine hs.first c ?_
    rw [← hrest, head?_dropWhile_append, Option.mem_def.mp hc]
    rfl

/-- A part of a name that is not empty can be the name of a function. -/
theorem isFunctionName (h : NamePart s) (hne : s ≠ "") : IsFunctionName s := by
  cases hs : s.toList with
  | nil => exact absurd (String.toList_eq_nil_iff.mp hs) hne
  | cons c rest =>
    have hchars := h.chars
    have hfirst := h.first
    rw [hs, List.forall_mem_cons] at hchars
    refine ⟨c, rest, hs, ?_, hchars.2⟩
    by_cases hc : c = '_'
    · exact .inr hc
    · rw [hs, List.dropWhile_cons_of_neg (by simpa using hc)] at hfirst
      have hdigit := hfirst c rfl
      have hsnake := hchars.1
      rw [isSnakeChar, hdigit, Bool.or_false, Bool.or_eq_true, beq_iff_eq] at hsnake
      exact .inl (hsnake.resolve_right hc)

end NamePart

/-- Capitalising leaves letters and digits only. -/
theorem isAlphanum_of_mem_joinCapitals {fresh : Bool} (h : ∀ c ∈ cs, isSnakeChar c)
    (hc : c ∈ joinCapitals fresh cs) :
    c.isAlphanum := by
  induction cs generalizing fresh with
  | nil => cases hc
  | cons d rest ih =>
    rw [List.forall_mem_cons] at h
    rw [joinCapitals] at hc
    split at hc
    · exact ih h.2 hc
    · next hd =>
      obtain ⟨hplain, hupper, -⟩ := toUpper_of_isSnakeChar h.1 (by simpa using hd)
      rcases List.mem_cons.mp hc with rfl | hc
      · split
        · exact hupper
        · exact hplain
      · exact ih h.2 hc

/-- Underscores in front leave no trace in capitalised names. -/
theorem joinCapitals_dropWhile (cs : List Char) :
    joinCapitals true (cs.dropWhile (· == '_')) = joinCapitals true cs := by
  induction cs with
  | nil => rfl
  | cons c rest ih =>
    by_cases hc : c = '_'
    · rw [List.dropWhile_cons_of_pos (by simpa using hc), ih, joinCapitals,
        if_pos (by simpa using hc)]
    · rw [List.dropWhile_cons_of_neg (by simpa using hc)]

/-- A part of a name becomes the name of a member by capitalising it. -/
theorem NamePart.isMemberName (h : NamePart s) : IsMemberName (pascalCase s) := by
  rw [IsMemberName, pascalCase, String.toList_ofList, pascalChars]
  cases hs : s.toList.dropWhile (· == '_') with
  | nil =>
    rw [← joinCapitals_dropWhile, hs]
    have hrest : "nnamed".toList.all Char.isAlphanum = true := by decide
    exact ⟨'U', "nnamed".toList, rfl, by decide, List.all_eq_true.mp hrest⟩
  | cons c rest =>
    have hmem : c ∈ s.toList := (List.dropWhile_sublist _).mem (hs ▸ List.mem_cons_self)
    have hc : c ≠ '_' := fun heq => head?_dropWhile_ne s.toList (by rw [hs, heq]; rfl)
    have hjoin : joinCapitals true s.toList = c.toUpper :: joinCapitals false rest := by
      rw [← joinCapitals_dropWhile, hs, joinCapitals, if_neg (by simpa using hc), if_pos rfl]
    have hdigit : c.isDigit = false := h.first c (by rw [hs]; rfl)
    rw [hjoin]
    refine ⟨c.toUpper, joinCapitals false rest, rfl,
      (toUpper_of_isSnakeChar (h.chars c hmem) hc).2.2 hdigit, ?_⟩
    intro d hd
    exact isAlphanum_of_mem_joinCapitals h.chars (hjoin ▸ List.mem_cons_of_mem _ hd)

/-- A canonical text is part of a name. -/
theorem Canonical.namePart (h : Canonical s) : NamePart s where
  chars := h.chars
  first c hc := by
    have hnone : s.toList.head? ≠ some '_' := fun heq => (h.first '_' heq).1 rfl
    rw [List.dropWhile_beq_eq_self_of_head?_ne hnone] at hc
    exact (h.first c hc).2

end Statechart.Naming

namespace Statechart.Machine

open Naming

variable {m : Machine}

/-- What the functions of a state start with is part of a name. -/
theorem namePart_stateName (m : Machine) (v : Nat) : NamePart (m.stateName v) := by
  induction v using climb (m := m) with
  | step v ih =>
    rw [stateName_eq]
    cases m.kind v with
    | root name => exact (by decide : NamePart "root")
    | state name => exact (canonical_identifier name).namePart
    | initial | point => exact (canonical_identifier _).namePart
    | final =>
      refine NamePart.append ?_ (by decide)
      cases hp : m.parent v with
      | none => exact (by decide : NamePart "root")
      | some p => exact ih p hp

/-- The function of a routine is named by parts of names, and by something. -/
theorem namePart_routineName (m : Machine) (r : Routine) :
    NamePart (m.routineName r) ∧ m.routineName r ≠ "" := by
  cases r with
  | enter v => exact ⟨(m.namePart_stateName v).append (by decide), by simp [routineName, enterFn]⟩
  | exit v => exact ⟨(m.namePart_stateName v).append (by decide), by simp [routineName, exitFn]⟩
  | event v event =>
    have hunderscore : NamePart "_" := by decide
    exact ⟨((m.namePart_stateName v).append hunderscore).append
      (canonical_identifier event).namePart,
      by simp [routineName, eventFn]⟩
  | shared p =>
    have hpart : NamePart (m.pseudoPart p) := by
      have hlabel {front : String} (label : String) (hfront : NamePart front) :
          NamePart (front ++ identifier label) :=
        hfront.append (canonical_identifier label).namePart
      rw [pseudoPart]
      split
      · exact (by decide : NamePart "initial_state")
      · exact hlabel _ (by decide)
      · exact hlabel _ (by decide)
      · exact hlabel _ (by decide)
      · exact m.namePart_stateName p
      · exact m.namePart_stateName p
      · exact m.namePart_stateName p
    have hdropped : NamePart (dropUnderscores (m.pseudoPart p)) := by
      refine hpart.of_front ?_
      rw [dropUnderscores, String.toList_ofList, ← List.reverse_suffix, List.reverse_reverse]
      exact List.dropWhile_suffix _
    have hname : m.pseudoFn p =
        (m.holder p).elim "root" m.stateName ++ "_" ++ dropUnderscores (m.pseudoPart p) ++
        "_transition" := by
      rw [pseudoFn]
      cases m.holder p <;> rfl
    have hplace : NamePart ((m.holder p).elim "root" m.stateName) := by
      cases m.holder p with
      | none => exact (by decide : NamePart "root")
      | some q => exact m.namePart_stateName q
    rw [routineName, hname]
    refine ⟨((hplace.append ?_).append hdropped).append ?_, by simp⟩
    · decide
    · decide

end Statechart.Machine

namespace Statechart.Naming

/-- Identifiers are canonical, are their own identifiers, and become members with a capital first
letter. So whatever states and events are called, their members start with a capital and go on with
letters and digits, and functions start with a letter or an underscore and go on with letters in
lower case, digits and underscores. -/
theorem names_have_canonical_shapes :
    (∀ s, Canonical (identifier s) ∧ identifier (identifier s) = identifier s ∧
      IsMemberName (pascalCase (identifier s))) ∧
    ∀ (m : Machine) (v : Nat) (event : String),
      (∀ name ∈ [m.stateMember v, eventMember event, m.exitVariant v, m.eventVariant v event],
        IsMemberName name) ∧
      ∀ name ∈ fixedFns ++ [m.enterFn v, m.exitFn v, m.eventFn v event, m.pseudoFn v],
        IsFunctionName name := by
  refine ⟨fun s => ?_, fun m v event => ⟨?_, ?_⟩⟩
  · have hcanonical := canonical_identifier s
    exact ⟨hcanonical, identifier_of_canonical hcanonical, hcanonical.namePart.isMemberName⟩
  · have hstate := (m.namePart_stateName v).isMemberName
    have hevent := (canonical_identifier event).namePart.isMemberName
    have hexit := (m.namePart_routineName (.exit v)).1.isMemberName
    have hhandler := (m.namePart_routineName (.event v event)).1.isMemberName
    simp only [List.forall_mem_cons]
    exact ⟨hstate, hevent, hexit, hhandler, by simp⟩
  · have hroutine (r : Routine) : IsFunctionName (m.routineName r) :=
      (m.namePart_routineName r).1.isFunctionName (m.namePart_routineName r).2
    have hfixed : ∀ name ∈ fixedFns, NamePart name ∧ name ≠ "" := by decide
    rw [List.forall_mem_append]
    refine ⟨fun name hname => (hfixed name hname).1.isFunctionName (hfixed name hname).2, ?_⟩
    simp only [List.forall_mem_cons]
    exact ⟨hroutine (.enter v), hroutine (.exit v), hroutine (.event v event),
      hroutine (.shared v), by simp⟩

end Statechart.Naming
