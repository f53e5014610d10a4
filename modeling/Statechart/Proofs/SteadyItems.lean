import Statechart.Proofs.Extents

/-!
# Items before an inert character

A blank or an opening brace goes on with no item of a text and closes none. With such a character at
the end of a text, every item but a line comment reaches as far as before, and where there was none
there still is none: a quote or a comment that is left open stays open.

An item reaches no further than the text that it is found in.
-/

namespace Statechart.Snippet

variable {x c : Char} {cs rest marks : List Char} {n : Nat} {f g : List Char → Option Nat}

/-- The characters that go on with an item or close it, other than those of names and numbers. -/
def itemMarks : List Char := "\n\r/*\"#'.:=,()]\x7drb".toList

/-- No item of a text goes on with the character or is closed by it. -/
structure Inert (x : Char) : Prop where
  not_mark : x ∉ itemMarks
  not_continue : Text.isNameContinue x = false
  not_word : (x.isAlphanum || x == '_') = false

/-- A blank is inert. -/
theorem inert_blank : Inert ' ' := ⟨by decide, by decide +kernel, by decide⟩

/-- An opening brace is inert. -/
theorem inert_brace : Inert '{' := ⟨by decide, by decide +kernel, by decide⟩

/-- An inert character starts no name. -/
theorem Inert.not_start (hx : Inert x) : Text.isNameStart x = false := by
  refine Bool.eq_false_iff.mpr fun hstart => ?_
  have hcontinue := Text.isNameContinue_of_isNameStart hstart
  rw [hx.not_continue] at hcontinue
  cases hcontinue

/-- An inert character is none of some marks. -/
theorem Inert.not_mem (hx : Inert x) (h : marks ⊆ itemMarks) : x ∉ marks :=
  fun hmem => hx.not_mark (h hmem)

/-- An inert character is not this mark. -/
theorem Inert.ne (hx : Inert x) (mark : Char) (h : mark ∈ itemMarks) : x ≠ mark := by
  rintro rfl
  exact hx.not_mark h

/-! ## Items that the character does not change -/

/-- How far an item reaches is the same with `x` at the end of the text, and it reaches no further
than the text. -/
structure Steady (x : Char) (f : List Char → Option Nat) : Prop where
  concat : ∀ cs, f (cs ++ [x]) = f cs
  within : ∀ cs n, f cs = some n → n ≤ cs.length

/-- What follows some characters reaches no further than the text if the rest does. -/
theorem le_of_map_add {r : Option Nat} {k m : Nat} (h : r.map (k + ·) = some n)
    (hr : ∀ j, r = some j → k + j ≤ m) :
    n ≤ m := by
  obtain ⟨j, hj, rfl⟩ := Option.map_eq_some_iff.mp h
  exact hr j hj

/-- An item behind fixed characters. -/
def behind (marks : List Char) (f : List Char → Option Nat) (cs : List Char) : Option Nat :=
  if marks.isPrefixOf cs then (f (cs.drop marks.length)).map (marks.length + ·) else none

/-- A character and all that go on with it. -/
def run (first more : Char → Bool) : List Char → Option Nat
  | c :: rest => if first c then some (1 + (rest.takeWhile more).length) else none
  | [] => none

/-- Characters that do not hold `x` start the text with `x` at its end if they start it without. -/
theorem exists_append_of_concat {after : List Char} (hx : x ∉ marks)
    (h : cs ++ [x] = marks ++ after) :
    ∃ before, cs = marks ++ before := by
  rcases List.prefix_concat_iff.mp ⟨after, h.symm⟩ with rfl | ⟨before, hbefore⟩
  · simp at hx
  · exact ⟨before, hbefore.symm⟩

/-- Characters without `x` start a text with `x` at its end exactly if they start it without. -/
theorem isPrefixOf_concat (hx : x ∉ marks) (cs : List Char) :
    marks.isPrefixOf (cs ++ [x]) = marks.isPrefixOf cs := by
  rw [Bool.eq_iff_iff, List.isPrefixOf_iff_prefix, List.isPrefixOf_iff_prefix,
    List.prefix_concat_iff, or_iff_right]
  rintro rfl
  simp at hx

/-- A steady item stays steady behind fixed characters without `x`. -/
theorem Steady.behind (hx : x ∉ marks) (h : Steady x f) : Steady x (behind marks f) := by
  refine ⟨fun cs => ?_, fun cs n hn => ?_⟩
  · unfold Snippet.behind
    rw [isPrefixOf_concat hx]
    split
    · next hmarks =>
      rw [List.drop_append_of_le_length (List.isPrefixOf_iff_prefix.mp hmarks).length_le, h.concat]
    · rfl
  · unfold Snippet.behind at hn
    split at hn
    · next hmarks =>
      have hle := (List.isPrefixOf_iff_prefix.mp hmarks).length_le
      obtain ⟨k, hk, rfl⟩ := Option.map_eq_some_iff.mp hn
      have hwithin := h.within _ k hk
      rw [List.length_drop] at hwithin
      omega
    · cases hn

/-- Looking for one steady item and, where there is none, for another is steady. -/
theorem Steady.or (hf : Steady x f) (hg : Steady x g) : Steady x (fun cs => (f cs).or (g cs)) := by
  refine ⟨fun cs => ?_, fun cs n hn => ?_⟩
  · rw [hf.concat, hg.concat]
  · rcases Option.or_eq_some_iff.mp hn with hn | ⟨-, hn⟩
    · exact hf.within cs n hn
    · exact hg.within cs n hn

/-- Characters of a kind end before one that is not of the kind. -/
theorem takeWhile_concat (more : Char → Bool) (h : more x = false) (cs : List Char) :
    (cs ++ [x]).takeWhile more = cs.takeWhile more := by
  induction cs with
  | nil => simp [h]
  | cons c cs ih => by_cases hc : more c <;> simp [hc, ih]

/-- Characters of a kind go on with one more of the kind if they reach to the end. -/
theorem length_takeWhile_concat (more : Char → Bool) (h : more x = true) (cs : List Char) :
    ((cs ++ [x]).takeWhile more).length =
      if (cs.takeWhile more).length = cs.length then cs.length + 1
        else (cs.takeWhile more).length := by
  rw [List.takeWhile_append]
  split <;> simp [h]

/-- A run of characters is steady if `x` neither starts it nor goes on with it. -/
theorem steady_run {first more : Char → Bool} (hfirst : first x = false) (hmore : more x = false) :
    Steady x (run first more) := by
  refine ⟨fun cs => ?_, fun cs n hn => ?_⟩
  · cases cs with
    | nil => simp [run, hfirst]
    | cons c rest => rw [List.cons_append, run, run, takeWhile_concat more hmore]
  · cases cs with
    | nil => cases hn
    | cons c rest =>
      rw [run] at hn
      split at hn
      · cases hn
        have hle := (List.takeWhile_prefix (l := rest) more).length_le
        rw [List.length_cons]
        omega
      · cases hn

/-- Nothing is behind characters that do not start the text. -/
theorem behind_of_not_start (marks : List Char) (h : ∀ rest, cs = marks ++ rest → False) :
    behind marks f cs = none := by
  refine if_neg fun hmarks => ?_
  obtain ⟨rest, hrest⟩ := List.isPrefixOf_iff_prefix.mp hmarks
  exact h rest hrest.symm

/-- Behind characters that start the text is what is found in the rest. -/
theorem behind_append (marks rest : List Char) :
    behind marks f (marks ++ rest) = (f rest).map (marks.length + ·) := by
  rw [behind, if_pos (List.isPrefixOf_iff_prefix.mpr (List.prefix_append marks rest)),
    List.drop_left]

/-- A function that looks for something behind fixed characters. -/
theorem eq_behind (hmarks : ∀ rest, g (marks ++ rest) = (f rest).map (marks.length + ·))
    (hnone : ∀ cs, (∀ rest, cs = marks ++ rest → False) → g cs = none) : g = behind marks f := by
  funext cs
  by_cases h : ∃ rest, cs = marks ++ rest
  · obtain ⟨rest, rfl⟩ := h
    rw [hmarks, behind_append]
  · rw [hnone cs (not_exists.mp h), behind_of_not_start marks (not_exists.mp h)]

/-- Behind one character. -/
theorem behind_singleton (d : Char) : behind [d] f (c :: rest) = if c = d then (f rest).map (1 + ·)
    else none := by
  by_cases h : c = d <;> simp [behind, h, Ne.symm]

/-- A function that looks for something perhaps behind a letter `b`. -/
theorem steady_byteMark (hx : Inert x) (hf : Steady x f)
    (hmark : ∀ rest, g ('b' :: rest) = (f rest).map (1 + ·))
    (hother : ∀ cs, (∀ rest, cs = 'b' :: rest → False) → g cs = f cs) : Steady x g := by
  have hb : x ∉ ['b'] := hx.not_mem (by decide)
  refine ⟨fun cs => ?_, fun cs n hn => ?_⟩
  · by_cases hcs : ∃ rest, cs = 'b' :: rest
    · obtain ⟨rest, rfl⟩ := hcs
      rw [List.cons_append, hmark, hmark, hf.concat]
    · rw [hother cs (not_exists.mp hcs), hother, hf.concat]
      exact fun after hafter => hcs (exists_append_of_concat hb hafter)
  · by_cases hcs : ∃ rest, cs = 'b' :: rest
    · obtain ⟨rest, rfl⟩ := hcs
      rw [hmark] at hn
      refine le_of_map_add hn fun j hj => ?_
      have hrest := hf.within rest j hj
      rw [List.length_cons]
      omega
    · rw [hother cs (not_exists.mp hcs)] at hn
      exact hf.within cs n hn

/-- A fixed text. -/
theorem steady_zero : Steady x (fun _ => some 0) :=
  ⟨fun _ => rfl, fun cs n hn => by cases hn; exact Nat.zero_le _⟩

/-! ## Comments and literals -/

/-- The rest of a block comment reaches no further than the text. -/
theorem blockTail_le (h : blockTail cs = some n) : n ≤ cs.length := by
  fun_induction blockTail cs generalizing n with
  | case1 => cases h
  | case2 => cases h; simp
  | case3 rest k hk ihrest ihdrop =>
    refine le_of_map_add h fun j hj => ?_
    have hrest := ihrest hk
    have hdrop := ihdrop hj
    simp only [List.length_drop, List.length_cons] at hdrop ⊢
    omega
  | case4 rest hnone ihrest ihstar =>
    refine le_of_map_add h fun j hj => ?_
    have hstar := ihstar hj
    simp only [List.length_cons] at hstar ⊢
    omega
  | case5 c rest hclose hopen ih =>
    refine le_of_map_add h fun j hj => ?_
    have hrest := ih hj
    simp only [List.length_cons]
    omega

/-- An inert character closes no block comment and opens none inside it. -/
theorem steady_blockTail (hx : Inert x) : Steady x blockTail := by
  have hslash : x ∉ ['/'] := hx.not_mem (by decide)
  have hstar : x ∉ ['*'] := hx.not_mem (by decide)
  refine ⟨fun cs => ?_, fun cs n => blockTail_le⟩
  fun_induction blockTail cs with
  | case1 => simp [blockTail]
  | case2 => simp [blockTail]
  | case3 rest k hk ihrest ihdrop =>
    -- an inner comment ends where it did, so the outer one goes on from there
    rw [← List.drop_append_of_le_length (blockTail_le hk)] at ihdrop
    simp [blockTail, ihrest, hk, ihdrop]
  | case4 rest hnone ihrest ihstar =>
    rw [List.cons_append] at ihstar
    simp [blockTail, ihrest, hnone, ihstar]
  | case5 c rest hclose hopen ih =>
    rw [List.cons_append, blockTail, ih]
    · intro after hc hafter
      obtain ⟨before, hbefore⟩ := exists_append_of_concat hslash hafter
      exact hclose before hc hbefore
    · intro after hc hafter
      obtain ⟨before, hbefore⟩ := exists_append_of_concat hstar hafter
      exact hopen before hc hbefore

/-- Block comments are steady. -/
theorem steady_blockComment (hx : Inert x) : Steady x blockComment := by
  have heq : blockComment = behind ['/', '*'] blockTail :=
    eq_behind (fun _ => rfl) fun cs hcs => by rw [blockComment]; exact hcs
  rw [heq]
  exact (steady_blockTail hx).behind (hx.not_mem (by decide))

/-- The rest of a raw string reaches no further than the text. -/
theorem rawTail_le {hashes : Nat} (h : rawTail hashes cs = some n) : n ≤ cs.length := by
  fun_induction rawTail hashes cs generalizing n with
  | case1 => cases h
  | case2 c rest hclose =>
    cases h
    have hle := (List.isPrefixOf_iff_prefix.mp (Bool.and_eq_true_iff.mp hclose).2).length_le
    rw [List.length_replicate] at hle
    rw [List.length_cons]
    omega
  | case3 c rest hclose ih =>
    refine le_of_map_add h fun j hj => ?_
    have hrest := ih hj
    rw [List.length_cons]
    omega

/-- An inert character closes no raw string. -/
theorem steady_rawTail (hx : Inert x) (hashes : Nat) : Steady x (rawTail hashes) := by
  have hhash : x ∉ List.replicate hashes '#' :=
    fun hmem => hx.ne '#' (by decide) (List.eq_of_mem_replicate hmem)
  refine ⟨fun cs => ?_, fun cs n => rawTail_le⟩
  induction cs with
  | nil =>
    have hquote : (x == '"') = false := by simpa using hx.ne '"' (by decide)
    simp [rawTail, hquote]
  | cons c rest ih => rw [List.cons_append, rawTail, rawTail, isPrefixOf_concat hhash, ih]

/-- A raw string behind its letter. -/
def rawBody (cs : List Char) : Option Nat :=
  let hashes := (cs.takeWhile (· == '#')).length
  (behind ['"'] (rawTail hashes) (cs.drop hashes)).map (hashes + ·)

/-- Raw strings are steady behind their letter. -/
theorem steady_rawBody (hx : Inert x) : Steady x rawBody := by
  have hhash : (x == '#') = false := by simpa using hx.ne '#' (by decide)
  have hquoted (hashes : Nat) : Steady x (behind ['"'] (rawTail hashes)) :=
    (steady_rawTail hx hashes).behind (hx.not_mem (by decide))
  refine ⟨fun cs => ?_, fun cs n hn => ?_⟩
  · have htake : (cs ++ [x]).takeWhile (· == '#') = cs.takeWhile (· == '#') :=
      takeWhile_concat (· == '#') hhash cs
    have hle := (List.takeWhile_prefix (l := cs) (· == '#')).length_le
    simp only [rawBody, htake]
    rw [List.drop_append_of_le_length hle, (hquoted _).concat]
  · have hle := (List.takeWhile_prefix (l := cs) (· == '#')).length_le
    refine le_of_map_add hn fun j hj => ?_
    have hwithin := (hquoted _).within _ j hj
    rw [List.length_drop] at hwithin
    omega

/-- A raw string is the letter `r` with the hashes, the quote and the rest behind it. -/
theorem rawFromR_eq : rawFromR = behind ['r'] rawBody := by
  refine eq_behind (fun rest => ?_) fun cs hcs => ?_
  · rw [List.singleton_append, rawFromR, rawBody]
    generalize (rest.takeWhile (· == '#')).length = hashes
    cases rest.drop hashes with
    | nil => rfl
    | cons c body =>
      rw [behind_singleton]
      by_cases hc : c = '"'
      · subst hc
        rw [if_pos rfl, Option.map_map, Option.map_map]
        refine congrArg (Option.map · _) (funext fun j => ?_)
        simp only [Function.comp_apply, List.length_singleton]
        omega
      · simp [hc]
  · rw [rawFromR]
    exact hcs

/-- Raw strings are steady, with a letter `b` in front or without. -/
theorem steady_rawString (hx : Inert x) : Steady x rawString := by
  refine steady_byteMark hx ?_ (fun _ => rfl) fun cs hcs => ?_
  · rw [rawFromR_eq]
    exact (steady_rawBody hx).behind (hx.not_mem (by decide))
  · rw [rawString]
    exact hcs

/-- The rest of a string reaches no further than the text. -/
theorem stringTail_le (h : stringTail cs = some n) : n ≤ cs.length := by
  fun_induction stringTail cs generalizing n with
  | case1 => cases h
  | case2 => cases h; simp
  | case3 c rest ih =>
    refine le_of_map_add h fun j hj => ?_
    have hrest := ih hj
    simp only [List.length_cons]
    omega
  | case4 c rest hquote hescape ih =>
    refine le_of_map_add h fun j hj => ?_
    have hrest := ih hj
    rw [List.length_cons]
    omega

/-- An inert character closes no string. -/
theorem steady_stringTail (hx : Inert x) : Steady x stringTail := by
  have hquote : x ≠ '"' := hx.ne '"' (by decide)
  refine ⟨fun cs => ?_, fun cs n => stringTail_le⟩
  fun_induction stringTail cs with
  | case1 => simp [stringTail]
  | case2 => rfl
  | case3 c rest ih => simp [stringTail, ih]
  | case4 c rest hclose hescape ih =>
    by_cases hc : c = '\\'
    · -- a backslash at the end of the text takes `x` with it, and the string is as open as before
      subst hc
      cases rest with
      | nil => rfl
      | cons d rest => exact (hescape d rest rfl rfl).elim
    · rw [List.cons_append, stringTail, ih]
      · exact hclose
      · exact fun _ _ h => (hc h).elim

/-- A string is a quote with the rest of the string behind it. -/
theorem stringFromQuote_eq : stringFromQuote = behind ['"'] stringTail :=
  eq_behind (fun _ => rfl) fun cs hcs => by rw [stringFromQuote]; exact hcs

/-- Strings are steady, with a letter `b` in front or without. -/
theorem steady_stringLiteral (hx : Inert x) : Steady x stringLiteral := by
  refine steady_byteMark hx ?_ (fun _ => rfl) fun cs hcs => ?_
  · rw [stringFromQuote_eq]
    exact (steady_stringTail hx).behind (hx.not_mem (by decide))
  · rw [stringLiteral]
    exact hcs

/-- The text up to a closing quote, with the quote. -/
def upToQuote (cs : List Char) : Option Nat :=
  let n := (cs.takeWhile (· != '\'')).length
  if (cs.drop n).isEmpty then none else some (n + 1)

/-- An inert character is no closing quote of a character literal. -/
theorem steady_upToQuote (hx : Inert x) : Steady x upToQuote := by
  have hquote : (x != '\'') = true := by simpa using hx.ne '\'' (by decide)
  refine ⟨fun cs => ?_, fun cs n => ?_⟩
  · have htake := length_takeWhile_concat (· != '\'') hquote cs
    have hle := (List.takeWhile_prefix (l := cs) (· != '\'')).length_le
    by_cases hall : (cs.takeWhile (· != '\'')).length = cs.length
    · -- without a quote all of the text is looked at, now with `x`
      rw [if_pos hall] at htake
      simp [upToQuote, htake, hall]
    · rw [if_neg hall] at htake
      simp only [upToQuote, htake]
      rw [if_neg (by simp; omega), if_neg (by simp; omega)]
  · fun_cases upToQuote cs with
    | case1 =>
      intro hn
      cases hn
    | case2 k hend =>
      have hlt : k < cs.length := by simpa using hend
      intro hn
      cases hn
      exact hlt

/-- A character literal behind its opening quote. -/
def charBody : List Char → Option Nat
  | '\\' :: _ :: rest => (upToQuote rest).map (2 + ·)
  | c :: '\'' :: _ => if c == '\'' || c == '\\' then none else some 2
  | _ => none

/-- A character literal is a quote with the rest of the literal behind it. -/
theorem charFromQuote_eq : charFromQuote = behind ['\''] charBody := by
  refine eq_behind (fun rest => ?_) fun cs hcs => ?_
  · fun_cases charBody rest with
    | case1 c after =>
      simp only [List.singleton_append, charFromQuote, upToQuote]
      split
      · rfl
      · simp
        omega
    | case2 c after hne hc => simp [charFromQuote, hc]
    | case3 c after hne hc => simp [charFromQuote, hc]
    | case4 _ hescape hplain =>
      rw [List.singleton_append, charFromQuote]
      · rfl
      · exact fun c after h => hescape c after (List.cons.inj h).2
      · exact fun c after h => hplain c after (List.cons.inj h).2
  · fun_cases charFromQuote cs with
    | case1 => exact (hcs _ rfl).elim
    | case2 => exact (hcs _ rfl).elim
    | case3 => exact (hcs _ rfl).elim
    | case4 => exact (hcs _ rfl).elim
    | case5 => rfl

/-- No character literal goes on with `x` where none was found. -/
theorem charBody_concat_of_none (hx : Inert x) (hescape : ∀ c rest, cs = '\\' :: c :: rest → False)
    (hplain : ∀ c rest, cs = c :: '\'' :: rest → False) : charBody (cs ++ [x]) = none := by
  have hquote : x ≠ '\'' := hx.ne '\'' (by decide)
  cases cs with
  | nil => simp [charBody]
  | cons c rest =>
    cases rest with
    | nil => by_cases hc : c = '\\' <;> simp [charBody, upToQuote, hc, hquote]
    | cons d rest =>
      rw [List.cons_append, List.cons_append, charBody]
      · exact fun head after h => hescape d rest (by rw [(List.cons.inj h).1])
      · exact fun head after h => hplain c rest (by rw [(List.cons.inj (List.cons.inj h).2).1])

/-- Character literals are steady behind their opening quote. -/
theorem steady_charBody (hx : Inert x) : Steady x charBody := by
  have hup := steady_upToQuote hx
  refine ⟨fun cs => ?_, fun cs n => ?_⟩
  · fun_cases charBody cs with
    | case1 c rest => rw [List.cons_append, List.cons_append, charBody, hup.concat]
    | case2 c rest hne hc => simp [charBody, hc]
    | case3 c rest hne hc => simp [charBody, hc]
    | case4 _ hescape hplain => exact charBody_concat_of_none hx hescape hplain
  · fun_cases charBody cs with
    | case1 c rest =>
      intro hn
      refine le_of_map_add hn fun j hj => ?_
      have hrest := hup.within rest j hj
      simp only [List.length_cons]
      omega
    | case2 | case4 =>
      intro hn
      cases hn
    | case3 c rest hne hc =>
      intro hn
      cases hn
      simp

/-- Character literals are steady, with a letter `b` in front or without. -/
theorem steady_charLiteral (hx : Inert x) : Steady x charLiteral := by
  refine steady_byteMark hx ?_ (fun _ => rfl) fun cs hcs => ?_
  · rw [charFromQuote_eq]
    exact (steady_charBody hx).behind (hx.not_mem (by decide))
  · rw [charLiteral]
    exact hcs

/-! ## Names, numbers and members -/

/-- An identifier is a run of characters of names. -/
theorem identLength_eq : identLength = run Text.isNameStart Text.isNameContinue := by
  funext cs
  cases cs <;> rfl

/-- Identifiers are steady. -/
theorem steady_identLength (hx : Inert x) : Steady x identLength := by
  rw [identLength_eq]
  exact steady_run hx.not_start hx.not_continue

/-- Numbers are steady: an inert character is neither a digit nor a letter of a suffix. -/
theorem steady_number (hx : Inert x) : Steady x number := by
  have heq : number = run Char.isDigit fun d => d.isAlphanum || d == '_' := by
    funext cs
    cases cs <;> rfl
  have hdigit : x.isDigit = false := by
    have hword := hx.not_word
    simp only [Char.isAlphanum, Bool.or_eq_false_iff] at hword
    exact hword.1.2
  rw [heq]
  exact steady_run hdigit hx.not_word

/-- Lifetimes are steady. -/
theorem steady_lifetime (hx : Inert x) : Steady x lifetime := by
  have heq : lifetime = behind ['\''] identLength :=
    eq_behind (fun _ => rfl) fun cs hcs => by rw [lifetime]; exact hcs
  rw [heq]
  exact (steady_identLength hx).behind (hx.not_mem (by decide))

/-- An identifier behind white space is steady, also where `x` is one more blank in
front of nothing. -/
theorem steady_spacedIdent (hx : Inert x) : Steady x spacedIdent := by
  have hident := steady_identLength hx
  refine ⟨fun cs => ?_, fun cs n hn => ?_⟩
  · have hle := (List.takeWhile_prefix (l := cs) Text.isWhite).length_le
    cases hwhite : Text.isWhite x with
    | false =>
      simp only [spacedIdent, takeWhile_concat Text.isWhite hwhite]
      rw [List.drop_append_of_le_length hle, hident.concat]
    | true =>
      have htake := length_takeWhile_concat Text.isWhite hwhite cs
      simp only [spacedIdent, htake]
      split
      · next hall =>
        have hfull : (cs ++ [x]).drop (cs.length + 1) = [] := List.drop_eq_nil_of_le (by simp)
        rw [hall, hfull, List.drop_length]
        rfl
      · rw [List.drop_append_of_le_length hle, hident.concat]
  · refine le_of_map_add hn fun j hj => ?_
    have hle := (List.takeWhile_prefix (l := cs) Text.isWhite).length_le
    have hwithin := hident.within _ j hj
    rw [List.length_drop] at hwithin
    omega

/-- The dots of a range are steady. -/
theorem steady_range (hx : Inert x) : Steady x range := by
  have heq : range = fun cs =>
      (behind "..=".toList (fun _ => some 0) cs).or (behind "..".toList (fun _ => some 0) cs) := by
    funext cs
    fun_cases range cs with
    | case1 => rfl
    | case2 after hequals =>
      rw [behind_of_not_start "..=".toList]
      · rfl
      · exact fun rest h => hequals rest (List.cons.inj (List.cons.inj h).2).2
    | case3 _ hclosed hopen =>
      rw [behind_of_not_start "..=".toList, behind_of_not_start "..".toList]
      · rfl
      · exact hopen
      · exact hclosed
  rw [heq]
  exact (steady_zero.behind (hx.not_mem (by decide))).or
    (steady_zero.behind (hx.not_mem (by decide)))

/-- Members and paths are steady. -/
theorem steady_member (hx : Inert x) : Steady x member := by
  have heq : member = fun cs =>
      (behind "::".toList spacedIdent cs).or (behind ".".toList spacedIdent cs) := by
    funext cs
    fun_cases member cs with
    | case1 after =>
      rw [behind_of_not_start ".".toList]
      · exact (Option.or_none ..).symm
      · exact fun rest h => absurd (List.cons.inj h).1 (by decide)
    | case2 after =>
      rw [behind_of_not_start "::".toList]
      · rfl
      · exact fun rest h => absurd (List.cons.inj h).1 (by decide)
    | case3 _ hpath hdot =>
      rw [behind_of_not_start "::".toList, behind_of_not_start ".".toList]
      · rfl
      · exact hdot
      · exact hpath
  rw [heq]
  have hident := steady_spacedIdent hx
  exact (hident.behind (hx.not_mem (by decide))).or (hident.behind (hx.not_mem (by decide)))

/-- The leaves other than line comments do not change. -/
theorem steady_leaf (hx : Inert x) {kind : LeafKind} {extent : List Char → Option Nat}
    (h : (kind, extent) ∈ leafExtents.tail) : Steady x extent := by
  simp only [leafExtents, List.tail_cons, List.mem_cons, Prod.mk.injEq, List.not_mem_nil,
    or_false] at h
  rcases h with ⟨-, rfl⟩ | ⟨-, rfl⟩ | ⟨-, rfl⟩ | ⟨-, rfl⟩ | ⟨-, rfl⟩ | ⟨-, rfl⟩ |
    ⟨-, rfl⟩ | ⟨-, rfl⟩
  · exact steady_blockComment hx
  · exact steady_rawString hx
  · exact steady_stringLiteral hx
  · exact steady_charLiteral hx
  · exact steady_lifetime hx
  · exact steady_number hx
  · exact steady_range hx
  · exact steady_member hx

end Statechart.Snippet
