import Statechart.Config
import Statechart.Proofs.Reindenting

/-!
# Declarations of variables, line by line

Variables are declared one to a line, either as `name: type` or as a public field, which is how the
generated file declares them. Blank lines and comments may stand anywhere. Reading a line strips it
several times: white space at both ends, any number of `pub `, commas and semicolons at the end,
then white space around the name and around the type.

None of this takes away a part of a name or of a type. The name is followed by a colon, so a
variable called `pub` is no mark of visibility, and the type keeps the colons in it, since the line
is cut at its first one. So the declared variables are read back in order, and whatever is read from
any text has a name and a trimmed type (`declared_variables_read_back`).
-/

namespace Statechart

namespace Text

variable {line : List Char}

/-! ## Lines -/

/-- The text is made of the lines: behind each stands a line break, which the last
one may do without. -/
inductive HasLines : List (List Char) → List Char → Prop
  | nil : HasLines [] []
  | last (line : List Char) : HasLines [line] line
  | feed (line : List Char) {ls : List (List Char)} {text : List Char} (rest : HasLines ls text) :
      HasLines (line :: ls) (line ++ '\n' :: text)
  | returnFeed (line : List Char) {ls : List (List Char)} {text : List Char}
      (rest : HasLines ls text) :
      HasLines (line :: ls) (line ++ '\r' :: '\n' :: text)

/-- A line without a line break behind it is a line unless it is empty. -/
theorem lines_of_unbroken (h : '\n' ∉ line) : lines line = if line.isEmpty then [] else [line] := by
  have hread := linesAfter_append h [] []
  rw [List.append_nil, List.append_nil] at hread
  rw [lines, hread, linesAfter, List.isEmpty_reverse, List.reverse_reverse]

/-- A line ends at the line feed behind it. -/
theorem lines_append_newline (h : '\n' ∉ line) (text : List Char) :
    lines (line ++ '\n' :: text) = closeLine line.reverse :: lines text := by
  rw [lines, linesAfter_append h, List.append_nil, linesAfter, if_pos (by rfl), lines]

/-- The carriage return that belongs to a line break is white space, so it makes no difference to
the trimmed line. -/
theorem trimChars_closeLine (line : List Char) :
    trimChars (closeLine line.reverse) = trimChars line := by
  unfold closeLine
  split
  · next rest hreverse =>
    have hline : line = rest.reverse ++ ['\r'] := by
      rw [← List.reverse_reverse line, hreverse, List.reverse_cons]
    rw [hline]
    exact (trimBy_append_of_dropped (List.forall_mem_singleton.mpr (by decide))).symm
  · rw [List.reverse_reverse]

end Text

open Text

namespace AutoVar

variable {var : AutoVar} {vars : List AutoVar} {name line marks : List Char}

/-! ## Names and types -/

/-- The name of a variable: letters, numbers and underscores, with no number in front. -/
structure IsVarName (name : List Char) : Prop where
  start : ∃ c ∈ name.head?, isAlphabetic c ∨ c = '_'
  word : ∀ c ∈ name, isAlphanumeric c ∨ c = '_'

/-- A well-formed variable has a name, and a type without white space around it. -/
structure WellFormed (var : AutoVar) : Prop where
  name : IsVarName var.name.toList
  type_ne : var.type ≠ ""
  type_trimmed : IsTrimmed isWhite var.type.toList

/-- A variable that can be declared on a line: the type stays on the line, and does not end with a
mark that could end the declaration. -/
structure Declarable (var : AutoVar) : Prop extends WellFormed var where
  type_unbroken : '\n' ∉ var.type.toList
  type_unmarked : var.type.toList.getLast? ≠ some ',' ∧ var.type.toList.getLast? ≠ some ';'

/-- Names are recognized. -/
theorem isName_iff : isName name ↔ IsVarName name := by
  cases name with
  | nil => exact iff_of_false Bool.false_ne_true fun h => by simpa using h.start
  | cons c rest =>
    simp only [isName, isWordChar, Bool.and_eq_true, Bool.or_eq_true, beq_iff_eq, List.all_eq_true]
    constructor
    · rintro ⟨hstart, hword⟩
      exact ⟨⟨c, rfl, hstart⟩, hword⟩
    · rintro ⟨⟨_, ⟨⟩, hstart⟩, hword⟩
      exact ⟨hstart, hword⟩

instance (name : List Char) : Decidable (IsVarName name) := decidable_of_iff _ isName_iff

instance (var : AutoVar) : Decidable var.WellFormed :=
  decidable_of_iff (IsVarName var.name.toList ∧ var.type ≠ "" ∧
    trimChars var.type.toList = var.type.toList)
    ⟨fun h => ⟨h.1, h.2.1, trimBy_eq_self_iff.mp h.2.2⟩,
      fun h => ⟨h.name, h.type_ne, trimBy_eq_self_iff.mpr h.type_trimmed⟩⟩

instance (var : AutoVar) : Decidable var.Declarable :=
  decidable_of_iff (var.WellFormed ∧ '\n' ∉ var.type.toList ∧
      var.type.toList.getLast? ≠ some ',' ∧ var.type.toList.getLast? ≠ some ';')
    ⟨fun h => ⟨h.1, h.2.1, h.2.2⟩, fun h => ⟨h.toWellFormed, h.type_unbroken, h.type_unmarked⟩⟩

/-- A character that belongs to no word is in no name. -/
theorem IsVarName.not_mem (h : IsVarName name) {c : Char} (hc : isWordChar c = false) :
    c ∉ name := by
  intro hmem
  have hword : isWordChar c := by simpa [isWordChar] using h.word c hmem
  rw [hc] at hword
  exact Bool.false_ne_true hword

/-- A text that starts with a name starts like the name. -/
theorem IsVarName.head?_append (h : IsVarName name) (rest : List Char) :
    (name ++ rest).head? = name.head? := by
  obtain ⟨c, hc, -⟩ := h.start
  rw [List.head?_append, Option.mem_def.mp hc]
  rfl

/-- A name has no white space at its ends, since it has none at all. -/
theorem IsVarName.isTrimmed (h : IsVarName name) : IsTrimmed isWhite name := by
  have hkept : ∀ c ∈ name, isWhite c = false := by
    intro c hc
    by_contra hwhite
    exact h.not_mem (isWordChar_of_isWhite (by simpa using hwhite)) hc
  exact ⟨fun c hc => hkept c (List.mem_of_mem_head? hc),
    fun c hc => hkept c (List.mem_of_mem_getLast? hc)⟩

/-! ## Reading a declaration -/

/-- The declaration of a variable by its name and type alone. -/
def plain (var : AutoVar) : String := var.name ++ ": " ++ var.type

/-- A name, a colon and a type. -/
theorem toList_plain (var : AutoVar) :
    var.plain.toList = var.name.toList ++ ':' :: ' ' :: var.type.toList := by
  simp [plain]

/-- A field is declared with a mark of visibility in front and a comma at the end. -/
theorem toList_field (var : AutoVar) :
    var.field.toList = 'p' :: 'u' :: 'b' :: ' ' :: (var.plain.toList ++ [',']) := by
  simp [field, plain]

/-- A declaration has no white space around it. -/
theorem WellFormed.isTrimmed_plain (h : var.WellFormed) : IsTrimmed isWhite var.plain.toList := by
  have hplain : var.plain.toList = (var.name.toList ++ [':', ' ']) ++ var.type.toList := by
    rw [toList_plain, List.append_assoc]
    rfl
  have hne : var.type.toList ≠ [] := by simpa using h.type_ne
  rw [hplain, isTrimmed_append h.type_trimmed hne, h.name.head?_append]
  exact h.name.isTrimmed.1

/-- Only a text that starts with a mark of visibility loses one. -/
theorem dropPub_of_not_prefix (h : ¬ "pub ".toList <+: line) : dropPub line = line := by
  unfold dropPub
  split
  · next rest => exact absurd ⟨rest, rfl⟩ h
  · rfl

/-- A declaration does not start with a mark of visibility, whatever its name: a colon follows the
name, and the mark has a blank. -/
theorem dropPub_plain (h : IsVarName var.name.toList) (rest : List Char) :
    dropPub (var.plain.toList ++ rest) = var.plain.toList ++ rest := by
  refine dropPub_of_not_prefix fun hmark => ?_
  have hblank : ' ' ∉ var.name.toList := h.not_mem (by decide)
  have hcolon : var.name.toList ++ [':'] <+: var.plain.toList ++ rest := by
    rw [toList_plain]
    exact ⟨' ' :: var.type.toList ++ rest, by simp⟩
  rcases List.prefix_or_prefix_of_prefix hmark hcolon with hmark | hcolon
  · have hmem : ' ' ∈ var.name.toList ++ [':'] := hmark.subset (by decide)
    simp [hblank] at hmem
  · have hmem : ':' ∈ "pub ".toList := hcolon.subset (by simp)
    exact absurd hmem (by decide)

/-- Commas and semicolons behind a declaration are cut off, and nothing else. -/
theorem core_plain (h : var.Declarable) (hmarks : ∀ c ∈ marks, c == ',' || c == ';') :
    core (var.plain.toList ++ marks) = var.plain.toList := by
  have hlast : var.plain.toList.getLast? = var.type.toList.getLast? := by
    rw [plain, String.toList_append]
    exact List.getLast?_append_of_ne_nil _ (mt String.toList_eq_nil_iff.mp h.type_ne)
  have hkept : ∀ c ∈ var.plain.toList.reverse.head?, (c == ',' || c == ';') = false := by
    intro c hc
    rw [List.head?_reverse, hlast, Option.mem_def] at hc
    have hmark := h.type_unmarked
    rw [hc] at hmark
    simpa using hmark
  rw [core, dropPub_plain h.name, List.reverse_append,
    List.dropWhile_append_of_pos (by simpa using hmarks), dropWhile_of_head hkept,
    List.reverse_reverse]
  exact trimBy_eq_self_iff.mpr h.isTrimmed_plain

/-- The line is cut at its first colon, which is the one behind the name. -/
theorem ofLine_of_core (h : var.WellFormed) (hcore : core line = var.plain.toList) :
    ofLine line = some var := by
  have hname : ∀ c ∈ var.name.toList, (c != ':') = true := by
    intro c hc
    exact bne_iff_ne.mpr fun heq => h.name.not_mem (by decide : isWordChar ':' = false) (heq ▸ hc)
  have hbefore : (var.plain.toList).takeWhile (· != ':') = var.name.toList := by
    rw [toList_plain, List.takeWhile_append_of_pos hname]
    simp
  have hbehind : ((var.plain.toList).dropWhile (· != ':')).tail =
      [' '] ++ var.type.toList ++ [] := by
    rw [toList_plain, List.dropWhile_append_of_pos hname]
    simp
  have htrim : trimChars var.name.toList = var.name.toList :=
    trimBy_eq_self_iff.mpr h.name.isTrimmed
  have htype : trimChars ([' '] ++ var.type.toList ++ []) = var.type.toList :=
    trimBy_eq h.type_trimmed (List.forall_mem_singleton.mpr (by decide)) (by simp)
  have hcolon : ':' ∈ var.plain.toList := by simp [toList_plain]
  rw [ofLine, hcore, hbefore, hbehind, htrim, htype, if_pos]
  · rw [String.ofList_toList, String.ofList_toList]
  · simpa [hcolon, isName_iff.mpr h.name] using h.type_ne

/-- Only lines that start with a slash, or are empty, are skipped. -/
theorem isSkipped_eq_false (hne : line ≠ []) (hslash : '/' ∉ line.head?) :
    isSkipped line = false := by
  cases line with
  | nil => exact absurd rfl hne
  | cons c rest =>
    have hc : ('/' == c) = false := beq_false_of_ne fun heq => hslash (heq ▸ rfl)
    rw [isSkipped, List.isPrefixOf, hc]
    rfl

/-- The line declares the variable, and is not skipped. -/
def Reads (line : List Char) (var : AutoVar) : Prop :=
  isSkipped (trimChars line) = false ∧ ofLine (trimChars line) = some var

/-- A declaration by name and type is read. -/
theorem Declarable.reads_plain (h : var.Declarable) : Reads var.plain.toList var := by
  have hcore : core var.plain.toList = var.plain.toList := by
    have hmarks : core (var.plain.toList ++ []) = var.plain.toList := core_plain h (by simp)
    rwa [List.append_nil] at hmarks
  have htrim : trimChars var.plain.toList = var.plain.toList :=
    trimBy_eq_self_iff.mpr h.isTrimmed_plain
  rw [Reads, htrim]
  refine ⟨?_, ofLine_of_core h.toWellFormed hcore⟩
  have hslash : '/' ∉ var.name.toList := h.name.not_mem (by decide)
  rw [toList_plain]
  refine isSkipped_eq_false (by simp) ?_
  rw [h.name.head?_append]
  exact fun hhead => hslash (List.mem_of_mem_head? hhead)

/-- A declaration as a field is read. -/
theorem Declarable.reads_field (h : var.Declarable) : Reads var.field.toList var := by
  have hcore : core var.field.toList = var.plain.toList := by
    rw [toList_field, core, dropPub]
    exact core_plain h (List.forall_mem_singleton.mpr rfl)
  have htrimmed : IsTrimmed isWhite var.field.toList := by
    have hcomma : IsTrimmed isWhite [','] := trimBy_eq_self_iff.mp (by decide)
    have happend : var.field.toList = ('p' :: 'u' :: 'b' :: ' ' :: var.plain.toList) ++ [','] :=
      toList_field var
    rw [happend, isTrimmed_append hcomma (by simp)]
    rintro c ⟨⟩
    decide
  have htrim : trimChars var.field.toList = var.field.toList := trimBy_eq_self_iff.mpr htrimmed
  rw [Reads, htrim]
  refine ⟨?_, ofLine_of_core h.toWellFormed hcore⟩
  rw [toList_field]
  exact isSkipped_eq_false (by simp) (by simp)

/-- What a line declares is well-formed. -/
theorem wellFormed_of_ofLine (h : ofLine line = some var) : var.WellFormed := by
  simp only [ofLine, Option.ite_none_right_eq_some, Bool.and_eq_true, Bool.not_eq_true',
    List.isEmpty_eq_false_iff, Option.some.injEq] at h
  obtain ⟨⟨⟨-, hname⟩, htype⟩, rfl⟩ := h
  obtain ⟨-, -, -, htrimmed, -, -⟩ :=
    exists_eq_trimBy isWhite ((core line).dropWhile (· != ':')).tail
  refine ⟨?_, ?_, ?_⟩
  · rw [String.toList_ofList]
    exact isName_iff.mp hname
  · simpa using htype
  · rw [String.toList_ofList]
    exact htrimmed

/-! ## Lines among declarations -/

/-- A line among declarations: blank, a comment behind any indentation, or a declaration in one of
its two forms. -/
inductive Entry
  | blank (white : String) (isBlank : Text.isBlank white.toList) (unbroken : '\n' ∉ white.toList)
  | comment (indent text : String) (isBlank : Text.isBlank indent.toList)
      (unbroken : '\n' ∉ indent.toList ++ text.toList)
  | plain (var : AutoVar) (declarable : var.Declarable)
  | field (var : AutoVar) (declarable : var.Declarable)

namespace Entry

/-- The line as it is written. -/
def text : Entry → List Char
  | blank white _ _ => white.toList
  | comment indent text _ _ => (indent ++ "//" ++ text).toList
  | plain var _ => var.plain.toList
  | field var _ => var.field.toList

/-- The variable that the line declares. -/
def var? : Entry → Option AutoVar
  | blank .. | comment .. => none
  | plain var _ | field var _ => some var

/-- An entry is one line. -/
theorem unbroken (e : Entry) : '\n' ∉ e.text := by
  have hplain {var : AutoVar} (h : var.Declarable) : '\n' ∉ var.plain.toList := by
    have hname : '\n' ∉ var.name.toList := h.name.not_mem (by decide)
    simp [toList_plain, hname, h.type_unbroken]
  cases e with
  | blank white hblank hunbroken => exact hunbroken
  | comment indent text hblank hunbroken => simpa [Entry.text] using hunbroken
  | plain var hvar => exact hplain hvar
  | field var hvar =>
    rw [text, toList_field]
    simp [hplain hvar]

end Entry

/-! ## Reading all lines -/

/-- A comment is skipped behind any indentation. -/
theorem isSkipped_comment {indent : List Char} (h : isBlank indent) (text : List Char) :
    isSkipped (trimChars (indent ++ (['/', '/'] ++ text))) := by
  have hslashes : ['/', '/'] <+: trimBy isWhite (['/', '/'] ++ text) :=
    prefix_trimBy (by simp) (by simpa using (by decide : isWhite '/' = false)) text
  rw [trimChars, trimBy, List.dropWhile_append_of_pos (List.all_eq_true.mp h), isSkipped,
    Bool.or_eq_true, List.isPrefixOf_iff_prefix]
  exact .inr hslashes

/-- Reading an entry in front of other lines; only what is left of it when it is trimmed matters. -/
theorem ofLines_cons_entry (e : Entry) {raw : List Char} (hraw : trimChars raw = trimChars e.text)
    (number : Nat) (ls : List (List Char)) :
    ofLines number (raw :: ls) = (ofLines (number + 1) ls).map (e.var?.toList ++ ·) := by
  have hskipped (h : isSkipped (trimChars e.text)) :
      ofLines number (raw :: ls) = (ofLines (number + 1) ls).map ([] ++ ·) := by
    rw [ofLines, hraw, if_pos h]
    cases ofLines (number + 1) ls <;> rfl
  have hdeclared {var : AutoVar} (h : Reads e.text var) :
      ofLines number (raw :: ls) = (ofLines (number + 1) ls).map ([var] ++ ·) := by
    rw [ofLines, hraw, if_neg (by simp [h.1]), h.2]
    rfl
  cases e with
  | blank white hblank hunbroken =>
    refine hskipped ?_
    rw [Entry.text, trimChars_eq_nil_iff.mpr hblank]
    rfl
  | comment indent text hblank hunbroken =>
    refine hskipped ?_
    have htext : (indent ++ "//" ++ text).toList =
      indent.toList ++ (['/', '/'] ++ text.toList) := by simp
    rw [Entry.text, htext]
    exact isSkipped_comment hblank text.toList
  | plain var hvar => exact hdeclared hvar.reads_plain
  | field var hvar => exact hdeclared hvar.reads_field

/-- An entry at the end of the text may do without a line break. If it is empty then, it is no line,
but as a line it would be skipped. -/
theorem ofLines_lines_last (e : Entry) (number : Nat) :
    ofLines number (lines e.text) = .ok (e.var?.toList ++ []) := by
  have hread : ofLines number [e.text] = .ok (e.var?.toList ++ []) :=
    ofLines_cons_entry e rfl number []
  rw [lines_of_unbroken e.unbroken]
  split
  · next hempty =>
    -- the empty line is skipped, so the entry declares nothing
    rw [List.isEmpty_iff.mp hempty] at hread
    exact hread
  · exact hread

/-- An entry with a line break behind it. -/
theorem ofLines_lines_cons (e : Entry) {line : List Char}
    (hline : line = e.text ∨ line = e.text ++ ['\r']) (number : Nat) (text : List Char) :
    ofLines number (lines (line ++ '\n' :: text)) =
      (ofLines (number + 1) (lines text)).map (e.var?.toList ++ ·) := by
  have hunbroken : '\n' ∉ line := by
    rcases hline with rfl | rfl
    · exact e.unbroken
    · simp [e.unbroken]
  rw [lines_append_newline hunbroken]
  refine ofLines_cons_entry e ?_ number (lines text)
  rw [trimChars_closeLine]
  rcases hline with rfl | rfl
  · rfl
  · exact trimBy_append_of_dropped (List.forall_mem_singleton.mpr (by decide))

/-- The variables in a text are those of its entries. -/
theorem ofLines_lines {entries : List Entry} {text : List Char}
    (h : HasLines (entries.map Entry.text) text) (number : Nat) :
    ofLines number (lines text) = .ok (entries.filterMap Entry.var?) := by
  have hcons (e : Entry) (entries : List Entry) :
      (e :: entries).filterMap Entry.var? = e.var?.toList ++ entries.filterMap Entry.var? := by
    cases hvar : e.var? <;> simp [hvar]
  -- by induction over the line breaks; the entries are found again from their lines
  generalize hls : entries.map Entry.text = ls at h
  induction h generalizing entries number with
  | nil =>
    rw [List.map_eq_nil_iff.mp hls]
    rfl
  | last line =>
    obtain ⟨e, rfl, rfl⟩ := List.map_eq_singleton_iff.mp hls
    rw [ofLines_lines_last, hcons]
    rfl
  | feed line rest ih =>
    obtain ⟨e, entries, rfl, rfl, hrest⟩ := List.map_eq_cons_iff.mp hls
    rw [ofLines_lines_cons e (.inl rfl), ih (number + 1) hrest, hcons]
    rfl
  | returnFeed line rest ih =>
    obtain ⟨e, entries, rfl, rfl, hrest⟩ := List.map_eq_cons_iff.mp hls
    rw [List.append_cons, ofLines_lines_cons e (.inr rfl), ih (number + 1) hrest, hcons]
    rfl

/-- Whatever is read was declared on a line. -/
theorem exists_ofLine_of_mem {number : Nat} {ls : List (List Char)}
    (h : ofLines number ls = .ok vars) (hvar : var ∈ vars) : ∃ line, ofLine line = some var := by
  induction ls generalizing number vars with
  | nil =>
    obtain rfl : [] = vars := Except.ok.inj h
    exact absurd hvar List.not_mem_nil
  | cons raw ls ih =>
    rw [ofLines] at h
    split at h
    · exact ih h hvar
    · split at h
      · next first hfirst =>
        cases hrest : ofLines (number + 1) ls with
        | error e =>
          rw [hrest] at h
          cases h
        | ok rest =>
          rw [hrest] at h
          obtain rfl : first :: rest = vars := Except.ok.inj h
          rcases List.mem_cons.mp hvar with rfl | hvar
          · exact ⟨_, hfirst⟩
          · exact ih hrest hvar
      · cases h

end AutoVar

namespace Config

/-- Variables that are declared line by line, in either form and with blank lines and comments
anywhere, are read back in order. Whatever is read, from this or any other text, is well-formed. -/
theorem declared_variables_read_back (config : Config) :
    (∀ entries : List AutoVar.Entry,
      HasLines (entries.map AutoVar.Entry.text) config.autoExpandedVars.toList →
        config.autoVars = .ok (entries.filterMap AutoVar.Entry.var?)) ∧
    ∀ vars, config.autoVars = .ok vars → ∀ var ∈ vars, var.WellFormed := by
  refine ⟨fun entries hlines => AutoVar.ofLines_lines hlines 1, fun vars hvars var hvar => ?_⟩
  obtain ⟨line, hline⟩ := AutoVar.exists_ofLine_of_mem hvars hvar
  exact AutoVar.wellFormed_of_ofLine hline

/-- Declarations in both forms, two of them of a variable called `pub`, with blank lines and
comments between them. -/
def gaugeEntries : List AutoVar.Entry := [
  .comment "" " kept" (by decide) (by decide),
  .plain ⟨"pub", "u32"⟩ (by decide),
  .blank "" (by decide) (by decide),
  .comment "\t" " more" (by decide) (by decide),
  .field ⟨"pub", "std::fs::File"⟩ (by decide),
  .blank "  " (by decide) (by decide),
  .plain ⟨"maß_2", "[u8; 4]"⟩ (by decide)]

/-- The configuration of a gauge, with its declarations as lines. -/
def gauge : Config where
  autoExpandedVars :=
    "// kept\r\npub: u32\n\n\t// more\npub pub: std::fs::File,\n  \nmaß_2: [u8; 4]"

/-- The three variables are read back, and are well-formed. -/
theorem gauge_variables_read_back :
    HasLines (gaugeEntries.map AutoVar.Entry.text) gauge.autoExpandedVars.toList ∧
      gauge.autoVars = .ok [⟨"pub", "u32"⟩, ⟨"pub", "std::fs::File"⟩, ⟨"maß_2", "[u8; 4]"⟩] ∧
      AutoVar.WellFormed ⟨"maß_2", "[u8; 4]"⟩ := by
  have hentries : gaugeEntries.map AutoVar.Entry.text = ["// kept".toList, "pub: u32".toList, [],
      "\t// more".toList, "pub pub: std::fs::File,".toList, "  ".toList,
      "maß_2: [u8; 4]".toList] := by
    decide +kernel
  have htext : gauge.autoExpandedVars.toList = "// kept".toList ++ '\r' :: '\n' ::
      ("pub: u32".toList ++ '\n' :: ([] ++ '\n' :: ("\t// more".toList ++ '\n' ::
        ("pub pub: std::fs::File,".toList ++ '\n' :: ("  ".toList ++ '\n' ::
          "maß_2: [u8; 4]".toList))))) := by
    decide +kernel
  have hlines : HasLines (gaugeEntries.map AutoVar.Entry.text) gauge.autoExpandedVars.toList := by
    rw [hentries, htext]
    exact .returnFeed _ (.feed _ (.feed _ (.feed _ (.feed _ (.feed _ (.last _))))))
  have hread := (declared_variables_read_back gauge).1 gaugeEntries hlines
  refine ⟨hlines, hread, (declared_variables_read_back gauge).2 _ hread _ ?_⟩
  decide

end Config

end Statechart
