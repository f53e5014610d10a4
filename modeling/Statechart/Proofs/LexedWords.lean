import Statechart.Snippet.Reference
import Statechart.Proofs.Expansion

/-!
# Identifier tokens are words

Whether code refers to an identifier is decided by its tokens, and where it has none by its words.
The two differ in their character classes: identifiers go on with characters that words do not have,
and words have numbers that no identifier has.

Still, an identifier token is never part of a longer word. Before it stands a lexeme that ends
cleanly: a literal takes an identifier right behind it as its suffix, an identifier goes on as long
as it can, and any other lexeme ends with a character of no word or before the end of a line. Behind
it the next lexeme starts, and where that starts with a character of a word, the identifier would
have gone on. So an ASCII identifier among the tokens is one of the words
(`lexed_identifiers_are_words`).
-/

namespace Statechart.Snippet

variable {c d : Char} {cs rest before after name : List Char} {n : Nat}

/-! ## Characters -/

/-- Of the ASCII characters, those of words are those of identifiers. -/
theorem isWordChar_eq_isNameContinue (h : c.toNat < 128) :
    Text.isWordChar c = Text.isNameContinue c := by
  have hall : ∀ n ∈ List.range 128, Text.isWordChar (Char.ofNat n) =
      Text.isNameContinue (Char.ofNat n) := by
    decide +kernel
  exact Text.of_mem_codes (fun c => Text.isWordChar c = Text.isNameContinue c) hall
    (List.mem_range.mpr h)

/-- What separates tokens belongs to no word. -/
theorem isWordChar_of_isSeparator (h : Token.isSeparator c) : Text.isWordChar c = false := by
  have hmarks : ∀ n ∈ [0x200E, 0x200F], Text.isWordChar (Char.ofNat n) = false := by decide +kernel
  simp only [Token.isSeparator, Bool.or_eq_true, beq_iff_eq] at h
  rcases h with (hwhite | hmark) | hmark
  · exact Text.isWordChar_of_isWhite hwhite
  · exact Text.of_mem_codes (Text.isWordChar · = false) hmarks (by simp [hmark])
  · exact Text.of_mem_codes (Text.isWordChar · = false) hmarks (by simp [hmark])

/-! ## Words -/

/-- A character that belongs to no word ends the words before it. -/
theorem wordsAfter_append (word : List Char) (h : Text.isWordChar c = false)
    (before rest : List Char) :
    wordsAfter word (before ++ c :: rest) = wordsAfter word before ++ words rest := by
  induction before generalizing word with
  | nil => simp [wordsAfter, h, words]
  | cons d before ih =>
    by_cases hd : Text.isWordChar d
    · simp [wordsAfter, hd, ih]
    · simp [wordsAfter, hd, ih]

/-- Word characters up to the end of a word belong to it. -/
theorem mem_wordsAfter (word : List Char) (hname : name.all Text.isWordChar)
    (hafter : ∀ d ∈ after.head?, Text.isWordChar d = false) :
    word.reverse ++ name ∈ wordsAfter word (name ++ after) := by
  induction name generalizing word with
  | nil =>
    cases after with
    | nil => simp [wordsAfter]
    | cons d after => simp [wordsAfter, hafter d rfl]
  | cons c name ih =>
    rw [List.all_cons, Bool.and_eq_true] at hname
    have hmem := ih (c :: word) hname.2
    simpa [wordsAfter, hname.1] using hmem

/-- The text has the name in it, and no word goes on before it or behind it. -/
def StandsAlone (name cs : List Char) : Prop :=
  ∃ before after, cs = before ++ (name ++ after) ∧
    (∀ l ∈ before.getLast?, Text.isWordChar l = false) ∧
    ∀ d ∈ after.head?, Text.isWordChar d = false

/-- Word characters that stand alone are a word. -/
theorem StandsAlone.mem_words (h : StandsAlone name cs) (hname : name.all Text.isWordChar) :
    name ∈ words cs := by
  obtain ⟨before, after, rfl, hbefore, hafter⟩ := h
  have hword : name ∈ words (name ++ after) := mem_wordsAfter [] hname hafter
  rcases List.eq_nil_or_concat before with rfl | ⟨front, l, rfl⟩
  · exact hword
  · have hl : Text.isWordChar l = false := hbefore l (by simp)
    rw [words, List.concat_append, wordsAfter_append [] hl]
    exact List.mem_append_right _ hword

/-! ## Where lexemes end -/

/-- No identifier starts right behind so many characters, unless the last of them
belongs to no word. -/
def EndsCleanly (cs : List Char) (n : Nat) : Prop :=
  ∀ d ∈ (cs.drop n).head?, Text.isNameStart d → ∀ l ∈ (cs.take n).getLast?,
    Text.isWordChar l = false

/-- An identifier that starts a text is as long as it is as a suffix. -/
theorem suffixLength_eq (cs : List Char) : Literal.suffixLength cs = (identLength cs).getD 0 := by
  cases cs with
  | nil => rfl
  | cons c rest =>
    simp only [Literal.suffixLength, identLength]
    split <;> rfl

/-- What a repetition leaves does not start with a character of the class. -/
theorem head?_drop_takeWhile {holds : Char → Bool}
    (h : d ∈ (cs.drop (cs.takeWhile holds).length).head?) :
    holds d = false := by
  induction cs with
  | nil => simp at h
  | cons c rest ih =>
    by_cases hc : holds c
    · exact ih (by simpa [List.takeWhile_cons, hc] using h)
    · obtain rfl : c = d := by simpa [List.takeWhile_cons, hc] using h
      simpa using hc

/-- An identifier is as long as it can be. -/
theorem isNameContinue_behind_ident (h : identLength cs = some n) (hd : d ∈ (cs.drop n).head?) :
    Text.isNameContinue d = false := by
  cases cs with
  | nil => simp [identLength] at h
  | cons c rest =>
    simp only [identLength, Option.ite_none_right_eq_some, Option.some.injEq] at h
    obtain ⟨-, rfl⟩ := h
    rw [Nat.add_comm, List.drop_succ_cons] at hd
    exact head?_drop_takeWhile hd

/-- No identifier starts behind a suffix. -/
theorem isNameStart_behind_suffix (hd : d ∈ (cs.drop (Literal.suffixLength cs)).head?) :
    Text.isNameStart d = false := by
  rw [suffixLength_eq] at hd
  cases hident : identLength cs with
  | some n =>
    rw [hident] at hd
    refine Bool.eq_false_iff.mpr fun hstart => ?_
    have hcontinue := isNameContinue_behind_ident hident hd
    rw [Text.isNameContinue_of_isNameStart hstart] at hcontinue
    cases hcontinue
  | none =>
    rw [hident] at hd
    cases cs with
    | nil => simp at hd
    | cons c rest =>
      obtain rfl : c = d := by simpa using hd
      simpa [identLength] using hident

/-- A literal with its suffix ends cleanly. -/
theorem endsCleanly_withSuffix (cs : List Char) (n : Nat) :
    EndsCleanly cs (Literal.withSuffix cs n) := by
  intro d hd hstart
  rw [Literal.withSuffix, ← List.drop_drop] at hd
  rw [isNameStart_behind_suffix hd] at hstart
  cases hstart

/-! ## Literals -/

/-- Something is read, and its first character is an ASCII one. -/
def StartsAscii (cs : List Char) (n : Nat) : Prop := 0 < n ∧ ∀ c ∈ cs.head?, c.toNat < 128

namespace Literal

/-- A string starts with a quote or a letter. -/
theorem startsAscii_string (h : Literal.string cs = some n) : StartsAscii cs n := by
  revert h
  fun_cases Literal.string cs <;> simp [StartsAscii] <;> omega

/-- A character starts with a quote or a letter. -/
theorem startsAscii_char (h : Literal.char cs = some n) : StartsAscii cs n := by
  revert h
  fun_cases Literal.char cs <;> simp [StartsAscii] <;> omega

/-- Digits are ASCII characters. -/
theorem lt_of_isDigit (h : c.isDigit) : c.toNat < 128 := by
  have hrange := List.mem_range'_1.mp (Text.toNat_mem_of_isDigit h)
  omega

/-- Hexadecimal digits are ASCII characters. -/
theorem lt_of_hexValue {value : Nat} (h : hexValue c = some value) : c.toNat < 128 := by
  have hle {d : Char} (hd : d.toNat < 128) (hcd : c ≤ d) : c.toNat < 128 :=
    Nat.lt_of_le_of_lt (UInt32.le_iff_toNat_le.mp hcd) hd
  revert h
  fun_cases hexValue c with
  | case1 hrange =>
    exact fun _ => hle (d := '9') (by decide) (of_decide_eq_true (Bool.and_eq_true_iff.mp hrange).2)
  | case2 _ hrange =>
    exact fun _ => hle (d := 'f') (by decide) (of_decide_eq_true (Bool.and_eq_true_iff.mp hrange).2)
  | case3 _ _ hrange =>
    exact fun _ => hle (d := 'F') (by decide) (of_decide_eq_true (Bool.and_eq_true_iff.mp hrange).2)
  | case4 => simp

/-- An exponent mark is read along with the digits before it. -/
theorem mantissa_pos {point point' : Bool} (h : mantissa point cs = some (n, point', true)) :
    0 < n := by
  cases cs with
  | nil => simp [mantissa] at h
  | cons c rest =>
    rw [mantissa] at h
    split at h
    · obtain ⟨⟨m, r⟩, -, hm⟩ := Option.map_eq_some_iff.mp h
      cases hm
      omega
    · split at h
      · split at h
        · cases h
        · obtain ⟨⟨m, r⟩, -, hm⟩ := Option.map_eq_some_iff.mp h
          cases hm
          omega
      · split at h
        · cases h
          omega
        · cases h

/-- A floating point number starts with a digit. -/
theorem startsAscii_floatDigits (h : floatDigits cs = some n) : StartsAscii cs n := by
  cases cs with
  | nil => simp [floatDigits] at h
  | cons c rest =>
    rw [floatDigits] at h
    split at h
    · next hdigit =>
      refine ⟨?_, by simpa using lt_of_isDigit hdigit⟩
      obtain ⟨⟨m, point, marked⟩, hm, hn⟩ := Option.bind_eq_some_iff.mp h
      cases marked with
      | true =>
        have hpos := mantissa_pos hm
        simp only [if_true] at hn
        split at hn
        · cases hn
          omega
        · split at hn <;> cases hn
          omega
      | false =>
        simp only [Bool.false_eq_true, if_false, Option.ite_none_right_eq_some,
          Option.some.injEq] at hn
        omega
    · cases h

/-- Digits in any base start with a digit or an underscore. -/
theorem startsAscii_digitsIn {base : Nat} (h : digitsIn base cs = some n) : StartsAscii cs n := by
  obtain ⟨⟨m, empty⟩, hm, hn⟩ := Option.bind_eq_some_iff.mp h
  cases empty with
  | true => simp at hn
  | false =>
    obtain rfl : m = n := by simpa using hn
    cases cs with
    | nil => simp [digitRun] at hm
    | cons c rest =>
      rw [digitRun] at hm
      split at hm
      · next value hvalue =>
        refine ⟨?_, by simpa using lt_of_hexValue hvalue⟩
        split at hm
        · obtain ⟨⟨k, r⟩, -, hk⟩ := Option.map_eq_some_iff.mp hm
          cases hk
          omega
        · split at hm <;> cases hm
      · split at hm
        · next hscore =>
          obtain rfl := eq_of_beq hscore
          refine ⟨?_, by simp⟩
          split at hm
          · cases hm
          · obtain ⟨⟨k, r⟩, -, hk⟩ := Option.map_eq_some_iff.mp hm
            cases hk
            omega
        · cases hm

/-- An integer starts with a digit. -/
theorem startsAscii_intDigits (h : intDigits cs = some n) : StartsAscii cs n := by
  revert h
  fun_cases intDigits cs with
  | case1 rest => simp [StartsAscii]; omega
  | case2 rest => simp [StartsAscii]; omega
  | case3 rest => simp [StartsAscii]; omega
  | case4 => exact startsAscii_digitsIn

/-- A literal is something with a suffix behind it. -/
theorem exists_withSuffix (h : Literal.length cs = some n) :
    ∃ m, n = withSuffix cs m ∧ StartsAscii cs m := by
  have hclose {m : Nat} (hm : closeNumber cs m = some n) : n = withSuffix cs m := by
    rw [closeNumber] at hm
    split at hm
    · cases hm
    · exact (Option.some.inj hm).symm
  simp only [Literal.length, Option.orElse_eq_orElse, Option.orElse_eq_or, Option.or_eq_some_iff,
    Option.map_eq_some_iff, Option.bind_eq_some_iff] at h
  rcases h with ⟨m, hm, rfl⟩ | ⟨-, ⟨m, hm, rfl⟩ | ⟨-, ⟨m, hm, hn⟩ | ⟨-, m, hm, hn⟩⟩⟩
  · exact ⟨m, rfl, startsAscii_string hm⟩
  · exact ⟨m, rfl, startsAscii_char hm⟩
  · exact ⟨m, hclose hn, startsAscii_floatDigits hm⟩
  · exact ⟨m, hclose hn, startsAscii_intDigits hm⟩

end Literal

/-! ## Lexemes -/

/-- What is read as one lexeme at the start of a text: it is not empty, it starts with a character
of a word only if this is one of identifiers, and it ends cleanly. -/
structure IsLexeme (cs : List Char) (n : Nat) : Prop where
  pos : 0 < n
  first : ∀ c ∈ cs.head?, Text.isWordChar c → Text.isNameContinue c
  ends : EndsCleanly cs n

/-- A lexeme may start with any ASCII character. -/
theorem StartsAscii.isLexeme (h : StartsAscii cs n) (hends : EndsCleanly cs n) : IsLexeme cs n :=
  ⟨h.1, fun c hc hword => isWordChar_eq_isNameContinue (h.2 c hc) ▸ hword, hends⟩

/-- A single character that belongs to no word is a lexeme. -/
theorem isLexeme_one (h : Text.isWordChar c = false) : IsLexeme (c :: rest) 1 := by
  refine ⟨Nat.one_pos, fun d hd hword => ?_, fun d _ _ l hl => ?_⟩
  · obtain rfl : c = d := by simpa using hd
    rw [h] at hword
    cases hword
  · obtain rfl : c = l := by simpa using hl
    exact h

/-- An identifier is a lexeme. -/
theorem isLexeme_of_identLength (h : identLength cs = some n) : IsLexeme cs n := by
  refine ⟨(identLength_bounds h).1, fun c hc _ => ?_, fun d hd hstart => ?_⟩
  · cases cs with
    | nil => cases hc
    | cons c' rest =>
      obtain rfl : c' = c := by simpa using hc
      simp only [identLength, Option.ite_none_right_eq_some] at h
      exact Text.isNameContinue_of_isNameStart h.1
  · have hcontinue := isNameContinue_behind_ident h hd
    rw [Text.isNameContinue_of_isNameStart hstart] at hcontinue
    cases hcontinue

namespace Token

/-- A block comment ends with its closing mark. -/
theorem exists_of_nestedComment {depth : Nat} (h : nestedComment depth cs = some n) :
    ∃ body rest, cs = body ++ '*' :: '/' :: rest ∧ n = body.length + 2 := by
  fun_induction nestedComment depth cs generalizing n with
  | case1 depth rest ih =>
    obtain ⟨m, hm, rfl⟩ := Option.map_eq_some_iff.mp h
    obtain ⟨body, after, rfl, rfl⟩ := ih hm
    exact ⟨'/' :: '*' :: body, after, rfl, by simp; omega⟩
  | case2 depth rest hdepth =>
    cases h
    exact ⟨[], rest, rfl, rfl⟩
  | case3 depth rest hdepth ih =>
    obtain ⟨m, hm, rfl⟩ := Option.map_eq_some_iff.mp h
    obtain ⟨body, after, rfl, rfl⟩ := ih hm
    exact ⟨'*' :: '/' :: body, after, rfl, by simp; omega⟩
  | case4 depth c rest _ _ ih =>
    obtain ⟨m, hm, rfl⟩ := Option.map_eq_some_iff.mp h
    obtain ⟨body, after, rfl, rfl⟩ := ih hm
    exact ⟨c :: body, after, rfl, by simp; omega⟩
  | case5 => cases h

/-- A block comment is a lexeme. -/
theorem isLexeme_nestedComment {depth : Nat} (h : nestedComment depth ('/' :: rest) = some n) :
    IsLexeme ('/' :: rest) n := by
  obtain ⟨body, after, htext, rfl⟩ := exists_of_nestedComment h
  refine StartsAscii.isLexeme ⟨by omega, by simp⟩ fun d _ _ l hl => ?_
  have htake : (body ++ '*' :: '/' :: after).take (body.length + 2) = body ++ ['*', '/'] :=
    List.take_length_add_append 2
  rw [htext, htake] at hl
  obtain rfl : '/' = l := by simpa using hl
  decide

/-- A comment up to the end of its line is a lexeme. -/
theorem isLexeme_untilLineFeed (rest : List Char) :
    IsLexeme ('/' :: rest) (untilLineFeed ('/' :: rest)) := by
  refine StartsAscii.isLexeme ⟨by simp [untilLineFeed], by simp⟩ fun d hd hstart => ?_
  have hbreak := head?_drop_takeWhile hd
  obtain rfl : d = '\n' := by simpa using hbreak
  exact absurd hstart (by decide)

/-- Comments are lexemes. -/
theorem isLexeme_plainComment (h : plainComment cs = some n) : IsLexeme cs n := by
  revert h
  fun_cases plainComment cs with
  | case1 rest =>
    rintro ⟨⟩
    exact isLexeme_untilLineFeed _
  | case2 => simp
  | case3 => simp
  | case4 rest =>
    rintro ⟨⟩
    exact isLexeme_untilLineFeed _
  | case5 rest =>
    rintro ⟨⟩
    refine StartsAscii.isLexeme ⟨by decide, by simp⟩ fun d _ _ l hl => ?_
    obtain rfl : '/' = l := by simpa using hl
    decide
  | case6 rest => exact isLexeme_nestedComment
  | case7 => simp
  | case8 => simp
  | case9 => exact isLexeme_nestedComment
  | case10 => simp

/-- White space and comments are lexemes. -/
theorem isLexeme_separator (h : separator cs = some n) : IsLexeme cs n := by
  cases cs with
  | nil => cases h
  | cons c rest =>
    rw [separator] at h
    split at h
    · next hseparator =>
      cases h
      exact isLexeme_one (isWordChar_of_isSeparator hseparator)
    · exact isLexeme_plainComment h

/-- Doc comments are lexemes. -/
theorem isLexeme_docSpan {text : List Char} (h : docSpan cs = some (n, text)) : IsLexeme cs n := by
  have hblock {rest : List Char} (hspan : docBlock ('/' :: rest) = some (n, text)) :
      IsLexeme ('/' :: rest) n := by
    obtain ⟨m, hm, hpair⟩ := Option.map_eq_some_iff.mp hspan
    cases hpair
    exact isLexeme_nestedComment hm
  revert h
  fun_cases docSpan cs with
  | case1 rest =>
    rintro ⟨⟩
    exact isLexeme_untilLineFeed _
  | case2 rest => exact hblock
  | case3 => simp
  | case4 rest =>
    rintro ⟨⟩
    exact isLexeme_untilLineFeed _
  | case5 => simp
  | case6 => exact hblock
  | case7 => simp

/-- A doc comment is no identifier. -/
theorem isLexeme_docComment {token : Token} (h : docComment cs = some (n, token)) :
    IsLexeme cs n ∧ ∃ text, token = .doc text := by
  obtain ⟨⟨m, text⟩, hspan, h⟩ := Option.bind_eq_some_iff.mp h
  obtain ⟨-, hpair⟩ := Option.ite_none_right_eq_some.mp h
  cases hpair
  exact ⟨isLexeme_docSpan hspan, text, rfl⟩

/-- A punctuation mark belongs to no word. -/
theorem isLexeme_punctMark {token : Token} (h : punctMark cs = some (n, token)) :
    IsLexeme cs n ∧ ∃ c, token = .punct c := by
  cases cs with
  | nil => cases h
  | cons c rest =>
    rw [punctMark] at h
    split at h
    · cases h
    · split at h
      · cases h
      · next hpunct =>
        split at h
        · cases h
        · cases h
          have hall : punctuation.all fun d => !Text.isWordChar d := by decide
          have hc := List.all_eq_true.mp hall c (by simpa using hpunct)
          exact ⟨isLexeme_one (by simpa using hc), c, rfl⟩

/-- An identifier that is not raw is spelled as it is read. -/
theorem isLexeme_anyIdent {token : Token} (h : anyIdent cs = some (n, token)) :
    IsLexeme cs n ∧ ∀ name, token = .ident false name → name = cs.take n ∧
      identLength cs = some n := by
  revert h
  fun_cases anyIdent cs with
  | case1 rest k hbad => simp
  | case2 rest k hgood =>
    rintro ⟨⟩
    have hends : EndsCleanly ('r' :: '#' :: rest) (2 + k) :=
      endsCleanly_withSuffix ('r' :: '#' :: rest) 2
    exact ⟨StartsAscii.isLexeme ⟨by omega, by simp⟩ hends, fun name hname => by cases hname⟩
  | case3 _ k hnone =>
    intro h
    rw [if_pos hnone] at h
    cases h
  | case4 _ k hsome =>
    intro h
    rw [if_neg hsome] at h
    cases h
    have hident : identLength cs = some k := by
      have hk : k = (identLength cs).getD 0 := suffixLength_eq cs
      cases hlength : identLength cs with
      | none => simp [hk, hlength] at hsome
      | some m => simpa [hlength] using hk.symm
    refine ⟨isLexeme_of_identLength hident, fun name hname => ?_⟩
    cases hname
    exact ⟨rfl, hident⟩

/-- Any other token is a lexeme, and an identifier is one as it is read. -/
theorem isLexeme_leaf {token : Token} (h : leaf cs = some (n, token)) :
    IsLexeme cs n ∧ ∀ name, token = .ident false name → name = cs.take n ∧
      identLength cs = some n := by
  simp only [leaf, Option.orElse_eq_orElse, Option.orElse_eq_or, Option.or_eq_some_iff,
    Option.map_eq_some_iff] at h
  rcases h with ⟨m, hm, hpair⟩ | ⟨-, hpunct | ⟨-, hident | ⟨-, hmark⟩⟩⟩
  · cases hpair
    obtain ⟨k, rfl, hstarts⟩ := Literal.exists_withSuffix hm
    have hpos : 0 < Literal.withSuffix cs k := Nat.add_pos_left hstarts.1 _
    exact ⟨StartsAscii.isLexeme ⟨hpos, hstarts.2⟩ (endsCleanly_withSuffix cs k),
      fun name hname => by cases hname⟩
  · obtain ⟨hlexeme, c, rfl⟩ := isLexeme_punctMark hpunct
    exact ⟨hlexeme, fun name hname => by cases hname⟩
  · rw [plainIdent] at hident
    split at hident
    · cases hident
    · exact isLexeme_anyIdent hident
  · obtain ⟨hmarked, hpair⟩ := Option.ite_none_right_eq_some.mp hmark
    cases hpair
    obtain ⟨rest, rfl⟩ := List.isPrefixOf_iff_prefix.mp hmarked
    have hfirst : (errorMark ++ rest).head? = some '(' := rfl
    have hlast : errorMark.getLast? = some ')' := by decide
    refine ⟨StartsAscii.isLexeme ⟨by decide, by simp [hfirst]⟩ fun d _ _ l hl => ?_,
      fun name hname => by cases hname⟩
    rw [List.take_left, hlast] at hl
    obtain rfl := Option.some.inj hl
    decide

/-- An opening bracket belongs to no word. -/
theorem isWordChar_of_closing {closer : Char} (h : closing c = some closer) :
    Text.isWordChar c = false := by
  simp only [closing, beq_iff_eq] at h
  split at h
  · next hc => rw [hc]; decide
  · split at h
    · next hc => rw [hc]; decide
    · split at h
      · next hc => rw [hc]; decide
      · cases h

/-- One step of lexing: a lexeme is read from the text, and what is left is lexed in turn. If the
lexeme is an identifier that is not raw, then it is one as it stands. -/
structure LexStep (cs : List Char) (tokens : List Token) (n : Nat) (others : List Token) :
    Prop where
  lexeme : IsLexeme cs n
  lexed : ∃ pending, lexAfter pending (cs.drop n) = some others
  split : ∃ found, tokens = found ++ others ∧
    ∀ name, .ident false name ∈ found → name = cs.take n ∧ identLength cs = some n

/-- Lexing a text that is not empty takes a step. -/
theorem exists_lexStep {pending : List Char} {tokens : List Token}
    (h : lexAfter pending (c :: rest) = some tokens) :
    ∃ n others, LexStep (c :: rest) tokens n others := by
  have hdrop {n : Nat} (hn : 0 < n) : rest.drop (n - 1) = (c :: rest).drop n := by
    obtain ⟨m, rfl⟩ := Nat.exists_eq_succ_of_ne_zero (Nat.ne_of_gt hn)
    rfl
  have hbracket {pending' : List Char} (hc : Text.isWordChar c = false)
      (hmap : (lexAfter pending' rest).map (.bracket c :: ·) = some tokens) :
      ∃ n others, LexStep (c :: rest) tokens n others := by
    obtain ⟨others, hothers, rfl⟩ := Option.map_eq_some_iff.mp hmap
    exact ⟨1, others, isLexeme_one hc, ⟨pending', hothers⟩, [.bracket c], rfl, by simp⟩
  rw [lexAfter] at h
  split at h
  · next n hseparator =>
    have hlexeme := isLexeme_separator hseparator
    rw [hdrop hlexeme.pos] at h
    exact ⟨n, tokens, hlexeme, ⟨pending, h⟩, [], rfl, by simp⟩
  · split at h
    · next n token hdoc =>
      obtain ⟨hlexeme, text, rfl⟩ := isLexeme_docComment hdoc
      rw [hdrop hlexeme.pos] at h
      obtain ⟨others, hothers, rfl⟩ := Option.map_eq_some_iff.mp h
      exact ⟨n, others, hlexeme, ⟨pending, hothers⟩, [.doc text], rfl, by simp⟩
    · split at h
      · next closer hopen _ => exact hbracket (isWordChar_of_closing hopen) h
      · split at h
        · next hclose =>
          split at h
          · refine hbracket ?_ h
            simp only [Bool.or_eq_true, beq_iff_eq] at hclose
            rcases hclose with (rfl | rfl) | rfl <;> decide
          · cases h
        · split at h
          · next n token hleaf =>
            obtain ⟨hlexeme, hident⟩ := isLexeme_leaf hleaf
            rw [hdrop hlexeme.pos] at h
            obtain ⟨others, hothers, rfl⟩ := Option.map_eq_some_iff.mp h
            refine ⟨n, others, hlexeme, ⟨pending, hothers⟩, [token], rfl, fun name hname => ?_⟩
            exact hident name (List.mem_singleton.mp hname).symm
          · cases h

/-- A text that can be lexed starts with a character of a word only if this is one of
identifiers. -/
theorem isNameContinue_of_lexAfter {pending : List Char} {tokens : List Token}
    (h : lexAfter pending cs = some tokens) (hc : c ∈ cs.head?) (hword : Text.isWordChar c) :
    Text.isNameContinue c := by
  cases cs with
  | nil => cases hc
  | cons d rest =>
    obtain ⟨n, others, hstep⟩ := exists_lexStep h
    exact hstep.lexeme.first c hc hword

/-- Identifier tokens are identifiers that stand alone in the text. -/
theorem standsAlone_of_mem_lexAfter {pending : List Char} {tokens : List Token}
    (h : lexAfter pending cs = some tokens) (hname : .ident false name ∈ tokens) :
    IsIdent name ∧ StandsAlone name cs := by
  induction hlength : cs.length using Nat.strongRecOn generalizing cs pending tokens with
  | ind length ih =>
    subst hlength
    cases cs with
    | nil =>
      rw [lexAfter] at h
      split at h <;> cases h
      simp at hname
    | cons c rest =>
      obtain ⟨n, others, hlexeme, ⟨pending', hothers⟩, found, rfl, hfound⟩ := exists_lexStep h
      have htext : (c :: rest).take n ++ (c :: rest).drop n = c :: rest :=
        List.take_append_drop n (c :: rest)
      rcases List.mem_append.mp hname with hname | hname
      · obtain ⟨rfl, hident⟩ := hfound name hname
        refine ⟨isIdent_take hident, [], (c :: rest).drop n, htext.symm, by simp, fun d hd => ?_⟩
        -- a word would go on behind the identifier only with a character that the identifier would
        -- have taken
        refine Bool.eq_false_iff.mpr fun hword => ?_
        have hcontinue := isNameContinue_of_lexAfter hothers hd hword
        rw [isNameContinue_behind_ident hident hd] at hcontinue
        cases hcontinue
      · have hshorter : ((c :: rest).drop n).length < (c :: rest).length := by
          have := hlexeme.pos
          simp only [List.length_drop, List.length_cons]
          omega
        obtain ⟨hident, before, after, hleft, hbefore, hafter⟩ := ih _ hshorter hothers hname rfl
        refine ⟨hident, (c :: rest).take n ++ before, after, ?_, ?_, hafter⟩
        · rw [List.append_assoc, ← hleft, htext]
        · cases before with
          | cons l before =>
            rw [List.getLast?_append, List.getLast?_cons, Option.some_or, ← List.getLast?_cons]
            exact hbefore
          | nil =>
            -- the identifier starts right behind the lexeme
            cases name with
            | nil => simp [IsIdent, identLength] at hident
            | cons d name =>
              rw [List.append_nil]
              exact hlexeme.ends d (by simp [hleft]) (isIdent_cons_iff.mp hident).1

/-- Neither is a byte order mark at the start of a text part of a word. -/
theorem standsAlone_of_mem_lex {tokens : List Token} (h : lex cs = some tokens)
    (hname : .ident false name ∈ tokens) :
    StandsAlone name cs := by
  rw [lex] at h
  split at h
  · next hmark =>
    obtain ⟨-, before, after, htail, hbefore, hafter⟩ := standsAlone_of_mem_lexAfter h hname
    cases cs with
    | nil => simp at hmark
    | cons c rest =>
      obtain rfl : c = Char.ofNat 0xFEFF := by simpa using hmark
      refine ⟨Char.ofNat 0xFEFF :: before, after, congrArg _ htail, fun l hl => ?_, hafter⟩
      cases before with
      | nil =>
        obtain rfl : Char.ofNat 0xFEFF = l := by simpa using hl
        decide +kernel
      | cons b before => exact hbefore l (by simpa using hl)
  · exact (standsAlone_of_mem_lexAfter h hname).2

/-- An identifier is among the tokens only if one of them is spelled like it. Raw identifiers are
spelled with a mark that no identifier has. -/
theorem eq_of_isIdent {token : Token} (hident : IsIdent name) (hdoc : name ≠ "doc".toList)
    (h : isIdent name token) : token = .ident false name := by
  cases token with
  | ident raw own =>
    cases raw with
    | false =>
      obtain rfl : own = name := by simpa [isIdent] using h
      rfl
    | true =>
      obtain rfl : 'r' :: '#' :: own = name := by simpa [isIdent] using h
      exact absurd (hident.isNameContinue (c := '#') (by simp)) (by decide)
  | doc text => exact absurd (by simpa [isIdent] using h) hdoc.symm
  | literal text => simp [isIdent] at h
  | punct c => simp [isIdent] at h
  | bracket c => simp [isIdent] at h

end Token

/-- The characters of an ASCII identifier are those of words. -/
theorem all_isWordChar_of_isIdent (hident : IsIdent name) (hascii : ∀ c ∈ name, c.toNat < 128) :
    name.all Text.isWordChar := by
  rw [List.all_eq_true]
  intro c hc
  rw [isWordChar_eq_isNameContinue (hascii c hc)]
  exact hident.isNameContinue hc

/-- An ASCII identifier that is found among the tokens of code is one of its words, so looking at
tokens only drops words: those in literals and comments, and the names of raw identifiers. The
identifier `doc` is left out, since it is found in every doc comment. -/
theorem lexed_identifiers_are_words {code ident : String} {tokens : List Token}
    (hident : IsIdent ident.toList) (hascii : ∀ c ∈ ident.toList, c.toNat < 128)
    (hdoc : ident ≠ "doc") (hlex : Token.lex code.toList = some tokens)
    (hfound : tokens.any (Token.isIdent ident.toList)) :
    references code ident ∧ ident.toList ∈ words code.toList := by
  constructor
  · simpa [references, hlex] using hfound
  · obtain ⟨token, htoken, hspelled⟩ := List.any_eq_true.mp hfound
    obtain rfl := Token.eq_of_isIdent hident (fun h => hdoc (String.toList_inj.mp h)) hspelled
    exact (Token.standsAlone_of_mem_lex hlex htoken).mem_words
      (all_isWordChar_of_isIdent hident hascii)

/-- Code that refers to the flag once as an identifier, and in a comment, a literal and a raw
identifier besides. -/
def flagged : String :=
  "/// note\nset(&'a consume_event, \"consume_event\", r#consume_event) // consume_event"

/-- The flag is found among the tokens and is a word. -/
theorem flagged_has_flag : ∃ tokens, Token.lex flagged.toList = some tokens ∧
    tokens.any (Token.isIdent consumeFlag.toList) ∧ consumeFlag.toList ∈ words flagged.toList := by
  have hlex : Token.lex flagged.toList = some ((Token.lex flagged.toList).getD []) := by
    decide +kernel
  have hfound : ((Token.lex flagged.toList).getD []).any (Token.isIdent consumeFlag.toList) := by
    decide +kernel
  have hident : IsIdent consumeFlag.toList := by
    unfold IsIdent
    decide +kernel
  have hascii : consumeFlag.toList.all (·.toNat < 128) := by decide
  have hlow (c : Char) (hc : c ∈ consumeFlag.toList) : c.toNat < 128 :=
    of_decide_eq_true (List.all_eq_true.mp hascii c hc)
  exact ⟨_, hlex, hfound, (lexed_identifiers_are_words hident hlow (by decide) hlex hfound).2⟩

end Statechart.Snippet
