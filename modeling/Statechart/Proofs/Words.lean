import Mathlib.Data.List.Basic
import Statechart.Naming.Names

/-!
# The words of a text

An identifier is spelled from the words of a text: what stands between characters that no identifier
holds, cut once more where a capital starts a word. Leading, trailing and repeated separators leave
no trace, so two texts with a separator between them have the words of the one and then those of the
other. Only the first word is not always spelled as it is: if it starts with a digit, a letter is
put in front of it.
-/

namespace Statechart.Naming

variable {c : Char} {cs : List Char} {ws ws' : List (List Char)}

/-- What stands between underscores, without the empty pieces. -/
def pieces (cs : List Char) : List (List Char) := (cs.splitOn '_').filter (!·.isEmpty)

/-- The character, or an underscore if no identifier holds it. -/
def plain (c : Char) : Char := if isPlainChar c then c else '_'

/-- The words of a text. -/
def wordsOf (cs : List Char) : List (List Char) := pieces (splitWords none (cs.map plain))

/-- The words of a string. -/
def words (s : String) : List (List Char) := wordsOf s.toList

/-- Words that have a letter in each and no underscore in any. -/
def Wordy (ws : List (List Char)) : Prop := ∀ word ∈ ws, word ≠ [] ∧ '_' ∉ word

/-- Whether the first word starts with a digit. -/
def startsWithDigit : List (List Char) → Bool
  | (c :: _) :: _ => c.isDigit
  | _ => false

/-- The words as an identifier spells them, with a letter in front of a first digit. -/
def spelled : List (List Char) → List (List Char)
  | (c :: word) :: rest => (if c.isDigit then 'n' :: c :: word else c :: word) :: rest
  | ws => ws

/-! ## Pieces -/

/-- Two texts with an underscore between them have the pieces of both. -/
theorem pieces_append (a b : List Char) : pieces (a ++ '_' :: b) = pieces a ++ pieces b := by
  rw [pieces, List.splitOn_append_cons_self, List.filter_append, pieces, pieces]

/-- An underscore in front adds no piece. -/
theorem pieces_cons (cs : List Char) : pieces ('_' :: cs) = pieces cs := pieces_append [] cs

/-- Underscores in front add no piece. -/
theorem pieces_dropWhile (cs : List Char) : pieces (cs.dropWhile (· == '_')) = pieces cs := by
  induction cs with
  | nil => rfl
  | cons c rest ih =>
    by_cases hc : c = '_'
    · rw [hc, List.dropWhile_cons_of_pos (by simp), ih, pieces_cons]
    · rw [List.dropWhile_cons_of_neg (by simpa using hc)]

/-- A text without underscores is one piece. -/
theorem pieces_of_not_mem (h : '_' ∉ cs) (hne : cs ≠ []) : pieces cs = [cs] := by
  rw [pieces, List.splitOn_eq_singleton h]
  simpa using hne

/-- Pieces are not empty. -/
theorem ne_nil_of_mem_pieces {piece : List Char} (h : piece ∈ pieces cs) : piece ≠ [] := by
  simpa using (List.mem_filter.mp h).2

/-- Pieces hold no underscore. -/
theorem not_mem_of_mem_pieces {piece : List Char} (h : piece ∈ pieces cs) : '_' ∉ piece := by
  replace h := (List.mem_filter.mp h).1
  induction cs generalizing piece with
  | nil => simp [List.mem_singleton.mp h]
  | cons c rest ih =>
    rw [List.splitOn_cons_eq_if_modifyHead] at h
    split at h
    · cases h with
      | head => exact List.not_mem_nil
      | tail _ h => exact ih h
    · next hc =>
      -- the first piece is one longer, the others are those of the rest
      cases hsplit : rest.splitOn '_' with
      | nil => exact absurd hsplit (List.splitOn_ne_nil '_' rest)
      | cons first others =>
        rw [hsplit] at h ih
        cases h with
        | head =>
          have hne : '_' ≠ c := fun heq => hc (beq_iff_eq.mpr heq.symm)
          simpa [hne] using ih List.mem_cons_self
        | tail _ h => exact ih (List.mem_cons_of_mem first h)

/-! ## Joining pieces -/

/-- Pieces with an underscore between any two. -/
def join (ws : List (List Char)) : List Char := ['_'].intercalate ws

/-- Joining all pieces is joining some of them, and then the rest. -/
theorem join_append (h : ws ≠ []) (h' : ws' ≠ []) :
    join (ws ++ ws') = join ws ++ '_' :: join ws' := by
  unfold join
  induction ws with
  | nil => exact absurd rfl h
  | cons w rest ih =>
    by_cases hrest : rest = []
    · simp [hrest, List.intercalate_cons_of_ne_nil h']
    · have hne : rest ++ ws' ≠ [] := by simp [hrest]
      rw [List.cons_append, List.intercalate_cons_of_ne_nil hne, ih hrest,
        List.intercalate_cons_of_ne_nil hrest, List.append_assoc _ _ ('_' :: _)]

/-- Text in front of the first piece comes first. -/
theorem join_cons_append (front w : List Char) (rest : List (List Char)) :
    join ((front ++ w) :: rest) = front ++ join (w :: rest) := by
  cases rest with
  | nil => simp [join]
  | cons w' rest => simp [join, List.intercalate_cons_of_ne_nil]

/-- Joined pieces end in the last one. -/
theorem exists_join_eq_append (init : List (List Char)) (w : List Char) :
    ∃ front, join (init ++ [w]) = front ++ w := by
  by_cases hinit : init = []
  · exact ⟨[], by simp [hinit, join]⟩
  · refine ⟨join init ++ ['_'], ?_⟩
    rw [join_append hinit (by simp), join, join, List.intercalate_singleton, List.append_assoc,
      List.singleton_append]

/-- Joined pieces can be told from each other. -/
theorem join_inj (h : ∀ w ∈ ws, '_' ∉ w) (h' : ∀ w ∈ ws', '_' ∉ w) (hne : ws ≠ [])
    (hne' : ws' ≠ []) : join ws = join ws' ↔ ws = ws' := by
  constructor
  · intro heq
    rw [← List.splitOn_intercalate '_' h hne, ← List.splitOn_intercalate '_' h' hne']
    exact congrArg (List.splitOn '_') heq
  · intro heq
    rw [heq]

/-! ## Collapsing and trimming -/

/-- Without underscores there is nothing to collapse up to the first one. -/
theorem collapse_append {w : List Char} (h : '_' ∉ w) (rest : List Char) :
    collapse (w ++ rest) = w ++ collapse rest := by
  induction w with
  | nil => rfl
  | cons c w ih =>
    have hc : c ≠ '_' := fun heq => h (heq ▸ List.mem_cons_self)
    have hw : '_' ∉ w := fun hmem => h (List.mem_cons_of_mem c hmem)
    rw [List.cons_append, collapse, if_neg (by simp [hc]), ih hw, List.cons_append]

/-- A run of underscores is collapsed to its first one. -/
theorem collapse_cons (rest : List Char) :
    collapse ('_' :: rest) = '_' :: collapse (rest.dropWhile (· == '_')) := by
  induction rest with
  | nil => rfl
  | cons c rest ih =>
    by_cases hc : c = '_'
    · rw [hc, collapse, if_pos (by simp), ih, List.dropWhile_cons_of_pos (by simp)]
    · rw [collapse, if_neg (by simp [hc]), List.dropWhile_cons_of_neg (by simpa using hc)]

/-- No underscore is left in front once leading ones are dropped. -/
theorem head?_dropWhile_ne (cs : List Char) : (cs.dropWhile (· == '_')).head? ≠ some '_' := by
  intro h
  have hhead := List.head?_dropWhile_not (· == '_') cs
  rw [h] at hhead
  exact absurd hhead (by decide)

/-- A collapsed text starts as it did before. -/
theorem head?_collapse (cs : List Char) : (collapse cs).head? = cs.head? := by
  induction cs with
  | nil => rfl
  | cons c rest ih =>
    rw [collapse]
    split
    · next h =>
      rw [Bool.and_eq_true, beq_iff_eq, beq_iff_eq] at h
      rw [ih, h.2, h.1, List.head?_cons]
    · rfl

/-- Collapsing and dropping leading underscores can be done in either order. -/
theorem dropWhile_collapse (cs : List Char) :
    (collapse cs).dropWhile (· == '_') = collapse (cs.dropWhile (· == '_')) := by
  by_cases h : cs.head? = some '_'
  · obtain ⟨rest, rfl⟩ := List.head?_eq_some_iff.mp h
    rw [collapse_cons, List.dropWhile_cons_of_pos (by simp), List.dropWhile_cons_of_pos (by simp),
      List.dropWhile_beq_eq_self_of_head?_ne]
    rw [head?_collapse]
    exact head?_dropWhile_ne rest
  · rw [List.dropWhile_beq_eq_self_of_head?_ne h, List.dropWhile_beq_eq_self_of_head?_ne]
    rwa [head?_collapse]

/-- A collapsed text without an underscore in front is its pieces, joined, and perhaps an
underscore at the end. -/
theorem collapse_eq_join (h : cs.head? ≠ some '_') :
    ∃ trail, collapse cs = join (pieces cs) ++ trail ∧ ∀ c ∈ trail, c = '_' := by
  induction hn : cs.length using Nat.strongRecOn generalizing cs with
  | ind n ih =>
    by_cases hmem : '_' ∈ cs
    · obtain ⟨w, rest, rfl, hw⟩ := List.eq_append_cons_of_mem hmem
      have hne : w ≠ [] := fun heq => h (by rw [heq]; rfl)
      have hlength : (rest.dropWhile (· == '_')).length < n := by
        have hle := (List.dropWhile_sublist (· == '_') (l := rest)).length_le
        simp only [List.length_append, List.length_cons] at hn
        omega
      obtain ⟨trail, htrail, hall⟩ := ih _ hlength (head?_dropWhile_ne rest) rfl
      rw [collapse_append hw, collapse_cons, htrail, pieces_append, pieces_of_not_mem hw hne,
        pieces_dropWhile]
      by_cases hrest : pieces rest = []
      · refine ⟨'_' :: trail, ?_, ?_⟩
        · simp [hrest, join]
        · simpa using hall
      · refine ⟨trail, ?_, hall⟩
        rw [join_append (by simp) hrest]
        simp [join]
    · refine ⟨[], ?_, by simp⟩
      have hcollapse := collapse_append hmem []
      by_cases hne : cs = []
      · rw [hne]
        rfl
      · rw [List.append_nil] at hcollapse
        rw [hcollapse, pieces_of_not_mem hmem hne]
        simp [join, collapse]

/-- Collapsing and trimming underscores leaves the pieces, joined. -/
theorem trimBy_collapse (cs : List Char) :
    Text.trimBy (· == '_') (collapse cs) = join (pieces cs) := by
  obtain ⟨trail, htrail, hall⟩ := collapse_eq_join (head?_dropWhile_ne cs)
  have hlast : (join (pieces cs)).reverse.head? ≠ some '_' := by
    rw [List.head?_reverse]
    cases List.eq_nil_or_concat (pieces cs) with
    | inl hnil => simp [hnil, join]
    | inr hconcat =>
      obtain ⟨init, w, hpieces⟩ := hconcat
      have hw : w ∈ pieces cs := by simp [hpieces]
      obtain ⟨front, hfront⟩ := exists_join_eq_append init w
      rw [hpieces, List.concat_eq_append, hfront,
        List.getLast?_append_of_ne_nil front (ne_nil_of_mem_pieces hw)]
      exact fun hlast => not_mem_of_mem_pieces hw (List.mem_of_getLast? hlast)
  rw [Text.trimBy, dropWhile_collapse, htrail, pieces_dropWhile, List.reverse_append,
    List.dropWhile_append_of_pos (by simpa using hall),
    List.dropWhile_beq_eq_self_of_head?_ne hlast, List.reverse_reverse]

/-! ## Words -/

/-- An underscore is no lower-case letter. -/
theorem isLower_underscore : Text.isLower '_' = false := by decide

/-- An underscore is no capital. -/
theorem isUpper_underscore : Text.isUpper '_' = false := by decide

/-- An underscore before a text starts its words afresh, as the start of the text does. -/
theorem splitWords_some (cs : List Char) : splitWords (some '_') cs = splitWords none cs := by
  cases cs with
  | nil => rfl
  | cons c rest =>
    have hstart : startsWord (some '_') c rest.head? = startsWord none c rest.head? := by
      simp [startsWord, isLower_underscore, isUpper_underscore]
    rw [splitWords, splitWords, hstart]

/-- Words are split on either side of an underscore alone. -/
theorem splitWords_append (previous : Option Char) (a b : List Char) :
    splitWords previous (a ++ '_' :: b) = splitWords previous a ++ '_' :: splitWords none b := by
  induction a generalizing previous with
  | nil =>
    have hstart : startsWord previous '_' b.head? = false := by
      simp [startsWord, isUpper_underscore]
    have hlower : Text.lowerChar '_' = ['_'] := by decide
    rw [List.nil_append, splitWords, List.nil_append, splitWords, hstart, hlower, splitWords_some]
    rfl
  | cons c rest ih =>
    -- an underscore that follows is no lower-case letter, just as the end of the text is none
    have hnext : startsWord previous c (rest ++ '_' :: b).head? =
        startsWord previous c rest.head? := by
      cases rest with
      | nil => simp [startsWord, isLower_underscore]
      | cons d rest => rfl
    rw [List.cons_append, splitWords, splitWords, hnext, ih]
    simp only [List.append_assoc]

/-- Two texts with a separator between them have the words of both. -/
theorem wordsOf_append (h : plain c = '_') (a b : List Char) :
    wordsOf (a ++ c :: b) = wordsOf a ++ wordsOf b := by
  rw [wordsOf, List.map_append, List.map_cons, h, splitWords_append, pieces_append,
    wordsOf, wordsOf]

/-- White space separates words. -/
theorem plain_of_isWhite (h : Text.isWhite c = true) : plain c = '_' := by
  have hall : ∀ n ∈ Text.whiteRanges.codes, plain (Char.ofNat n) = '_' := by decide
  exact Text.of_mem_codes (plain · = '_') hall (Text.Ranges.mem_codes_of_covers h)

/-- White space in front adds no word. -/
theorem wordsOf_dropWhile (cs : List Char) : wordsOf (cs.dropWhile Text.isWhite) = wordsOf cs := by
  induction cs with
  | nil => rfl
  | cons c rest ih =>
    by_cases hc : Text.isWhite c = true
    · rw [List.dropWhile_cons_of_pos hc, ih]
      exact (wordsOf_append (plain_of_isWhite hc) [] rest).symm
    · rw [List.dropWhile_cons_of_neg hc]

/-- White space at the end adds no word. -/
theorem wordsOf_reverse_dropWhile (cs : List Char) :
    wordsOf (cs.dropWhile Text.isWhite).reverse = wordsOf cs.reverse := by
  induction cs with
  | nil => rfl
  | cons c rest ih =>
    by_cases hc : Text.isWhite c = true
    · rw [List.dropWhile_cons_of_pos hc, ih, List.reverse_cons,
        wordsOf_append (plain_of_isWhite hc)]
      exact (List.append_nil _).symm
    · rw [List.dropWhile_cons_of_neg hc]

/-- Sanitizing keeps the words. -/
theorem pieces_sanitizeChars (cs : List Char) :
    pieces (splitWords none (sanitizeChars cs)) = wordsOf cs := by
  have htrim : pieces (splitWords none ((Text.trimChars cs).map plain)) = wordsOf cs := by
    change wordsOf (Text.trimChars cs) = wordsOf cs
    rw [Text.trimChars, Text.trimBy, wordsOf_reverse_dropWhile, List.reverse_reverse,
      wordsOf_dropWhile]
  rw [← htrim, sanitizeChars]
  split
  · split
    · exact (congrArg pieces (splitWords_append none [] _)).trans (pieces_cons _)
    · rfl
  · rfl

/-- The words of a string have a letter in each and no underscore in any. -/
theorem wordy_words (s : String) : Wordy (words s) :=
  fun _ h => ⟨ne_nil_of_mem_pieces h, not_mem_of_mem_pieces h⟩

/-- Joined words have these words for their pieces. -/
theorem Wordy.pieces_join (h : Wordy ws) : pieces (join ws) = ws := by
  cases ws with
  | nil => rfl
  | cons word rest =>
    rw [pieces, join, List.splitOn_intercalate '_' (fun w hw => (h w hw).2) (by simp),
      List.filter_eq_self]
    intro w hw
    simpa using (h w hw).1

/-- Two strings with a separator between them have the words of both. -/
theorem words_eq_append {s a b : String} (h : plain c = '_')
    (hs : s.toList = a.toList ++ c :: b.toList) :
    words s = words a ++ words b := by
  rw [words, hs, wordsOf_append h, words, words]

/-! ## Spelling -/

/-- The identifier for a text joins its words. -/
theorem toList_identifier (s : String) : (identifier s).toList = join (spelled (words s)) := by
  have hwords : pieces (splitWords none (sanitizeChars s.toList)) = words s :=
    pieces_sanitizeChars s.toList
  rw [identifier, snakeCase, sanitize, String.toList_ofList, String.toList_ofList, snakeChars,
    trimBy_collapse, hwords]
  cases hs : words s with
  | nil => rfl
  | cons word rest =>
    cases word with
    | nil => exact absurd rfl (wordy_words s [] (hs ▸ List.mem_cons_self)).1
    | cons c word =>
      have hjoin : join ((c :: word) :: rest) = c :: join (word :: rest) :=
        join_cons_append [c] word rest
      simp only [hjoin, spelled]
      by_cases hdigit : c.isDigit = true
      · rw [if_pos hdigit, if_pos hdigit, ← hjoin]
        exact (join_cons_append ['n'] (c :: word) rest).symm
      · rw [if_neg hdigit, if_neg hdigit, hjoin]

/-- Only a first word is spelled in a way of its own. -/
theorem spelled_append (h : ws ≠ []) : spelled (ws ++ ws') = spelled ws ++ ws' := by
  cases ws with
  | nil => exact absurd rfl h
  | cons word rest =>
    cases word with
    | nil => rfl
    | cons c word => simp only [List.cons_append, spelled]

/-- As many words are spelled as there are. -/
theorem length_spelled (ws : List (List Char)) : (spelled ws).length = ws.length := by
  unfold spelled
  split <;> rfl

/-- Words stay words when they are spelled. -/
theorem Wordy.spelled (h : Wordy ws) : Wordy (spelled ws) := by
  cases ws with
  | nil => exact h
  | cons word rest =>
    cases word with
    | nil => exact h
    | cons c word =>
      rw [Wordy, List.forall_mem_cons] at h
      rw [Naming.spelled, Wordy, List.forall_mem_cons]
      refine ⟨?_, h.2⟩
      split
      · simpa using h.1.2
      · exact h.1

/-- Spelling changes no word exactly if the first one does not start with a digit. -/
theorem spelled_eq_self_iff : spelled ws = ws ↔ startsWithDigit ws = false := by
  cases ws with
  | nil => simp [spelled, startsWithDigit]
  | cons word rest =>
    cases word with
    | nil => simp [spelled, startsWithDigit]
    | cons c word =>
      rw [spelled, startsWithDigit]
      cases c.isDigit with
      | false => simp
      | true => simp

/-! ## Capitals -/

/-- Words are capitalised on either side of an underscore alone. -/
theorem joinCapitals_append (fresh : Bool) (a b : List Char) :
    joinCapitals fresh (a ++ '_' :: b) = joinCapitals fresh a ++ joinCapitals true b := by
  induction a generalizing fresh with
  | nil => simp [joinCapitals]
  | cons c rest ih =>
    rw [List.cons_append, joinCapitals, joinCapitals]
    split
    · exact ih true
    · rw [ih, List.cons_append]

/-- Behind a letter the next one stays as it is. -/
theorem joinCapitals_concat {d : Char} (hc : c ≠ '_') (hd : d ≠ '_') (fresh : Bool)
    (cs : List Char) :
    joinCapitals fresh (cs ++ [c, d]) = joinCapitals fresh (cs ++ [c]) ++ [d] := by
  induction cs generalizing fresh with
  | nil => simp [joinCapitals, hc, hd]
  | cons e rest ih =>
    rw [List.cons_append, joinCapitals, List.cons_append, joinCapitals]
    split
    · exact ih true
    · rw [ih, List.cons_append]

/-- A member ends in the last letter of the name that it is made of. -/
theorem getLast?_pascalCase {s : String} {d : Char} {front : List Char}
    (hs : s.toList = front ++ [c, d]) (hc : c ≠ '_') (hd : d ≠ '_') :
    (pascalCase s).toList.getLast? = some d := by
  rw [pascalCase, String.toList_ofList, pascalChars, hs, joinCapitals_concat hc hd]
  split
  · next hnil => simp at hnil
  · simp

end Statechart.Naming
