import Mathlib.Data.List.TakeWhile
import Statechart.Proofs.Grammar

/-!
# Extents are what the grammar reads

Each extent of code says how many characters an expression of the grammar reads, and that the
expression fails where there is no extent. Such facts are put together the way expressions are, so
every extent has a lemma that follows its own recursion; a repetition with something behind it is
taken one round at a time.
-/

namespace Statechart.Snippet

/-- Between the two stacks, the expression reads as many characters of the text as
are given, or fails. -/
def Reads (e : Peg) (before after : List (List Char)) (cs : List Char) : Option Nat → Prop
  | some n => ∃ nodes, Parses e before cs (some ⟨cs.take n, nodes, cs.drop n, after⟩)
  | none => Parses e before cs none

/-- One character of a class. -/
def single (holds : Char → Bool) : List Char → Option Nat
  | c :: _ => if holds c then some 1 else none
  | [] => none

variable {a b e : Peg} {s t u : List (List Char)} {c : Char} {cs rest : List Char} {m n : Nat}
  {r r' : Option Nat} {holds holds' : Char → Bool}

/-- A single character is the first one. -/
theorem exists_of_single (h : single holds cs = some n) : ∃ c rest, cs = c :: rest ∧ n = 1 := by
  cases cs with
  | nil => simp [single] at h
  | cons c rest =>
    simp only [single, Option.ite_none_right_eq_some, Option.some.injEq] at h
    exact ⟨c, rest, rfl, h.2.symm⟩

/-! ## How expressions are put together -/

/-- The rule of a leaf fails where its expression fails. -/
theorem Parses.leaf_none {kind : LeafKind} (h : Parses kind.body s cs none) :
    Parses (.rule (.leaf kind)) s cs none := by
  have hbody : Parses (Rule.body (.leaf kind)) s cs none := h
  exact Parses.rule hbody

namespace Reads

/-- A fixed text is read where it stands. -/
theorem lit (text rest : List Char) : Reads (.lit text) s s (text ++ rest) (some text.length) :=
  ⟨[], by simpa using Parses.lit rfl⟩

/-- A class is read as one character of it. -/
theorem char (holds : Char → Bool) (cs : List Char) :
    Reads (.char holds) s s cs (single holds cs) := by
  cases cs with
  | nil => exact Parses.char_fail fun c rest h => by simp at h
  | cons c rest =>
    by_cases h : holds c
    · simpa [single, h] using ⟨[], Parses.char h⟩
    · simp only [single, h]
      exact Parses.char_fail fun d _ hd => by simpa [← (List.cons.inj hd).1] using h

/-- The second expression starts where the first one ends. -/
theorem seq (ha : Reads a s t cs (some n)) (hb : Reads b t u (cs.drop n) r) :
    Reads (.seq a b) s u cs (r.map (n + ·)) := by
  obtain ⟨nodes, ha⟩ := ha
  cases r with
  | none => exact Parses.seq ha hb
  | some k =>
    obtain ⟨more, hb⟩ := hb
    refine ⟨nodes ++ more, ?_⟩
    simpa [Reading.append, List.take_add, List.drop_drop] using Parses.seq ha hb

/-- The first alternative is taken where it can be read. -/
theorem alt_left (ha : Reads a s t cs (some n)) : Reads (.alt a b) s t cs (some n) := by
  obtain ⟨nodes, ha⟩ := ha
  exact ⟨nodes, Parses.alt ha⟩

/-- The second alternative is taken where the first one fails. -/
theorem alt_right (ha : Parses a s cs none) (hb : Reads b s t cs r) :
    Reads (.alt a b) s t cs r := by
  cases r with
  | none => exact Parses.alt_fail ha hb
  | some n =>
    obtain ⟨nodes, hb⟩ := hb
    exact ⟨nodes, Parses.alt_fail ha hb⟩

/-- An alternative that fails adds nothing. -/
theorem alt_only (ha : Reads a s t cs r) (hb : Parses b s cs none) : Reads (.alt a b) s t cs r := by
  cases r with
  | none => exact Parses.alt_fail ha hb
  | some n => exact alt_left ha

/-- Two alternatives read what the first one that can be read reads. -/
theorem alt (ha : Reads a s t cs r) (hb : Reads b s t cs r') :
    Reads (.alt a b) s t cs (r.or r') := by
  cases r with
  | none => simpa using alt_right ha hb
  | some n => exact alt_left ha

/-- A repetition stops where its expression fails. -/
theorem star_end (ha : Parses a s cs none) : Reads (.star a) s s cs (some 0) :=
  ⟨[], Parses.star_end ha⟩

/-- A repetition goes on behind a round of it. -/
theorem star_more (ha : Reads a s t cs (some n))
    (hmore : Reads (.star a) t u (cs.drop n) (some m)) :
    Reads (.star a) s u cs (some (n + m)) := by
  obtain ⟨nodes, ha⟩ := ha
  obtain ⟨more, hmore⟩ := hmore
  refine ⟨nodes ++ more, ?_⟩
  simpa [Reading.append, List.take_add, List.drop_drop] using Parses.star ha hmore

/-- What stands behind a repetition is read where the repetition stops. -/
theorem star_seq_end (ha : Parses a s cs none) (hb : Reads b s u cs r) :
    Reads (.seq (.star a) b) s u cs r := by
  simpa using (star_end ha).seq hb

/-- A repetition and what stands behind it are read by one round and then the same again. -/
theorem star_seq_more (ha : Reads a s t cs (some n))
    (hmore : Reads (.seq (.star a) b) t u (cs.drop n) r) :
    Reads (.seq (.star a) b) s u cs (r.map (n + ·)) := by
  obtain ⟨nodes, ha⟩ := ha
  cases r with
  | none => exact Parses.star_seq ha hmore
  | some k =>
    obtain ⟨more, hmore⟩ := hmore
    refine ⟨nodes ++ more, ?_⟩
    simpa [Reading.append, List.take_add, List.drop_drop] using Parses.star_seq ha hmore

/-- A rule reads what its expression reads. -/
theorem rule {name : Rule} (h : Reads name.body s t cs r) : Reads (.rule name) s t cs r := by
  cases r with
  | none => exact Parses.rule h
  | some n =>
    obtain ⟨nodes, h⟩ := h
    exact ⟨_, Parses.rule h⟩

/-- The rule of a leaf reads what its expression reads. -/
theorem leaf {kind : LeafKind} (h : Reads kind.body s t cs r) :
    Reads (.rule (.leaf kind)) s t cs r := rule h

/-- The text that is read goes on the stack. -/
theorem push (h : Reads e s t cs (some n)) : Reads (.push e) s (cs.take n :: t) cs (some n) := by
  obtain ⟨nodes, h⟩ := h
  exact ⟨nodes, Parses.push h⟩

/-- The text on top of the stack is read and stays there. -/
theorem peek (top rest : List Char) : Reads .peek (top :: s)
    (top :: s) (top ++ rest) (some top.length) :=
  ⟨[], by simpa using Parses.peek rfl⟩

/-- The text on top of the stack is read and taken off. -/
theorem pop (top rest : List Char) : Reads .pop (top :: s) s (top ++ rest) (some top.length) :=
  ⟨[], by simpa using Parses.pop rfl⟩

/-- Any character can be read. -/
theorem any (c : Char) (rest : List Char) : Reads .any s s (c :: rest) (some 1) :=
  Reads.char _ (c :: rest)

/-- A character is read where the expression is not. -/
theorem anyBut (h : Parses e s (c :: rest) none) : Reads (.anyBut e) s s (c :: rest) (some 1) := by
  have havoid : Reads (.avoid e) s s (c :: rest) (some 0) := ⟨[], Parses.avoid h⟩
  exact havoid.seq (any c rest)

/-- No character is read where the expression can be read. -/
theorem anyBut_none (h : Reads e s t cs (some n)) : Parses (.anyBut e) s cs none := by
  obtain ⟨nodes, h⟩ := h
  exact Parses.seq_fail (Parses.avoid_fail h)

/-- At the end there is no character to read. -/
theorem anyBut_nil (h : Parses e s [] none) : Parses (.anyBut e) s [] none :=
  Parses.seq (Parses.avoid h) (Parses.char_fail (by simp))

/-! ## Single characters -/

/-- A text of one character is a class of one. -/
theorem lit_single (d : Char) (cs : List Char) : Reads (.lit [d]) s s cs (single (· == d) cs) := by
  cases cs with
  | nil => exact Parses.lit_fail (by simp)
  | cons c rest =>
    by_cases h : c = d
    · subst h
      simpa [single] using lit [c] rest
    · simp only [single, beq_iff_eq, h]
      exact Parses.lit_fail (by simp [h])

/-- Two classes are the class of both. -/
theorem alt_single (ha : Reads a s t cs (single holds cs))
    (hb : Reads b s t cs (single holds' cs)) :
    Reads (.alt a b) s t cs (single (fun c => holds c || holds' c) cs) := by
  have h := ha.alt hb
  cases cs with
  | nil => exact h
  | cons c rest => by_cases hc : holds c <;> simpa [single, hc] using h

/-- Any character but those of a class is the class of the others. -/
theorem anyBut_single (h : Reads e s t cs (single holds cs)) :
    Reads (.anyBut e) s s cs (single (fun c => !holds c) cs) := by
  cases cs with
  | nil => exact anyBut_nil h
  | cons c rest =>
    by_cases hc : holds c <;> simp only [single, hc] at h ⊢
    · exact anyBut_none h
    · exact anyBut h

/-- A repetition of single characters goes on as long as they are of the class. -/
theorem star_single (h : ∀ cs, Reads e s s cs (single holds cs)) (cs : List Char) :
    Reads (.star e) s s cs (some (cs.takeWhile holds).length) := by
  induction cs with
  | nil => exact star_end (h [])
  | cons c rest ih =>
    have hc := h (c :: rest)
    by_cases hholds : holds c
    · simp only [single, hholds] at hc
      simpa [List.takeWhile_cons, hholds, Nat.add_comm] using hc.star_more ih
    · simp only [single, hholds] at hc
      simpa [List.takeWhile_cons, hholds] using star_end hc

/-- The first character of an identifier or a number and those behind it. -/
theorem char_star (holds holds' : Char → Bool) (cs : List Char) :
    Reads (.seq (.char holds) (.star (.char holds'))) s s cs
      ((single holds cs).map (· + (cs.tail.takeWhile holds').length)) := by
  have h := Reads.char (s := s) holds cs
  cases cs with
  | nil => exact Parses.seq_fail h
  | cons c rest =>
    by_cases hc : holds c <;> simp only [single, hc] at h ⊢
    · exact h.seq (star_single (Reads.char holds') rest)
    · exact Parses.seq_fail h

/-- A literal of bytes has a mark in front of it. -/
theorem byteMark (h : Reads e s t rest r) :
    Reads (.seq (.optional (.lit ['b'])) e) s t ('b' :: rest) (r.map (1 + ·)) :=
  (alt_left (lit ['b'] rest)).seq h

/-- Without the mark, a literal starts with its text. -/
theorem no_byteMark (hmark : ∀ rest, cs = 'b' :: rest → False) (h : Reads e s t cs r) :
    Reads (.seq (.optional (.lit ['b'])) e) s t cs r := by
  simpa [Peg.optional] using (alt_right (Parses.lit_fail hmark) (lit [] cs)).seq h

end Reads

/-! ## Comments and literals -/

/-- The ends of lines are found by one character: the longer mark starts with one that is
a mark by itself. -/
theorem reads_line (cs : List Char) :
    Reads (.anyBut .newline) s s cs (single (fun c => c != '\n' && c != '\r') cs) := by
  cases cs with
  | nil => exact Reads.anyBut_nil (Parses.alt_fail (Parses.lit_fail (by simp))
      (Parses.alt_fail (Parses.lit_fail (by simp)) (Parses.lit_fail (by simp))))
  | cons c rest =>
    by_cases hfeed : c = '\n'
    · subst hfeed
      exact Reads.anyBut_none (Reads.alt_left (Reads.lit ['\n'] rest))
    · have hno_feed : Parses (.lit ['\n']) s (c :: rest) none := Parses.lit_fail (by simp [hfeed])
      by_cases hreturn : c = '\r'
      · subst hreturn
        have hboth : ∃ n,
            Reads (.alt (.lit ['\r', '\n']) (.lit ['\r'])) s s ('\r' :: rest) (some n) := by
          by_cases hnext : ∃ after, rest = '\n' :: after
          · obtain ⟨after, rfl⟩ := hnext
            exact ⟨2, Reads.alt_left (Reads.lit ['\r', '\n'] after)⟩
          · exact ⟨1,
              Reads.alt_right (Parses.lit_fail (by simpa using hnext)) (Reads.lit ['\r'] rest)⟩
        obtain ⟨n, hboth⟩ := hboth
        exact Reads.anyBut_none (Reads.alt_right hno_feed hboth)
      · have hchar : Reads (.anyBut .newline) s s (c :: rest) (some 1) :=
          Reads.anyBut
            (Parses.alt_fail hno_feed (Parses.alt_fail (Parses.lit_fail (by simp [hreturn]))
            (Parses.lit_fail (by simp [hreturn]))))
        simpa [single, hfeed, hreturn] using hchar

/-- A comment up to the end of its line is read as far as it reaches. -/
theorem reads_lineComment (cs : List Char) :
    Reads (LeafKind.body .lineComment) s s cs (lineComment cs) := by
  fun_cases lineComment cs with
  | case1 rest => exact (Reads.lit ['/', '/'] rest).seq (Reads.star_single reads_line rest)
  | case2 _ hnone => exact Parses.seq_fail (Parses.lit_fail hnone)

/-- The expression for what remains of a block comment. -/
def Peg.blockTail : Peg :=
  .seq (.star (.alt (.rule (.leaf .blockComment)) (.anyBut (.lit ['*', '/'])))) (.lit ['*', '/'])

/-- A block comment is what remains of one behind its opening mark. -/
theorem Reads.openBlock (h : Reads .blockTail s s rest r) :
    Reads (LeafKind.body .blockComment) s s ('/' :: '*' :: rest) (r.map (2 + ·)) :=
  (Reads.lit ['/', '*'] rest).seq h

/-- Nothing but the opening mark starts a block comment. -/
theorem blockComment_none (h : ∀ rest, cs = '/' :: '*' :: rest → False) :
    Parses (LeafKind.body .blockComment) s cs none :=
  Parses.seq_fail (Parses.lit_fail h)

/-- The rest of a block comment is read as far as it reaches, with the comments inside it. -/
theorem reads_blockTail (cs : List Char) : Reads .blockTail s s cs (blockTail cs) := by
  fun_induction blockTail cs with
  | case1 =>
    have hend : Parses (.lit ['*', '/']) s [] none := Parses.lit_fail (by simp)
    refine Reads.star_seq_end ?_ hend
    exact Parses.alt_fail (Parses.leaf_none (blockComment_none (by simp))) (Reads.anyBut_nil hend)
  | case2 rest =>
    have hend : Reads (.lit ['*', '/']) s s ('*' :: '/' :: rest) (some 2) :=
      Reads.lit ['*', '/'] rest
    refine Reads.star_seq_end ?_ hend
    exact Parses.alt_fail (Parses.leaf_none (blockComment_none (by simp))) (Reads.anyBut_none hend)
  | case3 rest n hn ihinner ihouter =>
    rw [hn] at ihinner
    have hrest : ('/' :: '*' :: rest).drop (2 + n) = rest.drop n := by simp [Nat.add_comm]
    exact Reads.star_seq_more (Reads.alt_left (Reads.leaf ihinner.openBlock)) (hrest ▸ ihouter)
  | case4 rest hn ihinner ihouter =>
    rw [hn] at ihinner
    have hchar : Reads (.anyBut (.lit ['*', '/'])) s s ('/' :: '*' :: rest) (some 1) :=
      Reads.anyBut (Parses.lit_fail (by simp))
    exact Reads.star_seq_more (Reads.alt_right (Parses.leaf_none ihinner.openBlock) hchar) ihouter
  | case5 c rest hclose hopen ih =>
    have hchar : Reads (.anyBut (.lit ['*', '/'])) s s (c :: rest) (some 1) :=
      Reads.anyBut (Parses.lit_fail (by simpa using hclose))
    exact Reads.star_seq_more
      (Reads.alt_right (Parses.leaf_none (blockComment_none (by simpa using hopen))) hchar) ih

/-- A block comment is read as far as it reaches. -/
theorem reads_blockComment (cs : List Char) :
    Reads (LeafKind.body .blockComment) s s cs (blockComment cs) := by
  fun_cases blockComment cs with
  | case1 rest => exact (reads_blockTail rest).openBlock
  | case2 _ hnone => exact blockComment_none hnone

/-- The closing quote and hash signs of a raw string are found by looking for the
text on the stack. -/
theorem reads_rawTail (hashes : Nat) (cs : List Char) :
    Reads (.inOrder [.star (.anyBut (.seq (.lit ['"']) .peek)), .lit ['"']] .pop)
      (List.replicate hashes '#' :: s) s cs (rawTail hashes cs) := by
  fun_induction rawTail hashes cs with
  | case1 =>
    have hquote : Parses (.lit ['"']) (List.replicate hashes '#' :: s) [] none :=
      Parses.lit_fail (by simp)
    exact Reads.star_seq_end (Reads.anyBut_nil (Parses.seq_fail hquote)) (Parses.seq_fail hquote)
  | case2 c rest h =>
    simp only [Bool.and_eq_true, beq_iff_eq, List.isPrefixOf_iff_prefix] at h
    obtain ⟨rfl, after, rfl⟩ := h
    have hquote :
        Reads (.lit ['"']) (List.replicate hashes '#' :: s) (List.replicate hashes '#' :: s)
        ('"' :: (List.replicate hashes '#' ++ after)) (some 1) := Reads.lit ['"'] _
    have hpeek := hquote.seq (Reads.peek (s := s) (List.replicate hashes '#') after)
    have hpop := hquote.seq (Reads.pop (s := s) (List.replicate hashes '#') after)
    exact Reads.star_seq_end (Reads.anyBut_none hpeek) (by simpa using hpop)
  | case3 c rest h ih =>
    have hend :
        Parses (.seq (.lit ['"']) .peek) (List.replicate hashes '#' :: s) (c :: rest) none := by
      by_cases hc : c = '"'
      · subst hc
        refine Parses.seq (Parses.lit rfl) (Parses.peek_fail ?_)
        rintro top others htop after rfl
        obtain rfl := (List.cons.inj htop).1
        simp [List.isPrefixOf_iff_prefix] at h
      · exact Parses.seq_fail (Parses.lit_fail (by simp [hc]))
    exact Reads.star_seq_more (Reads.anyBut hend) ih

/-- A raw string is read as far as it reaches; its hash signs are on the stack
until it is closed. -/
theorem reads_rawFromR (cs : List Char) :
    Reads (.inOrder [.lit ['r'], .push (.star (.lit ['#'])), .lit ['"'],
      .star (.anyBut (.seq (.lit ['"']) .peek)), .lit ['"']] .pop) s s cs (rawFromR cs) := by
  have hpush (rest : List Char) : Reads (.push (.star (.lit ['#']))) s
      (List.replicate (rest.takeWhile (· == '#')).length '#' :: s) rest
      (some (rest.takeWhile (· == '#')).length) := by
    have htake : rest.take (rest.takeWhile (· == '#')).length =
        List.replicate (rest.takeWhile (· == '#')).length '#' := by
      rw [← List.prefix_iff_eq_take.mp (List.takeWhile_prefix _)]
      exact List.eq_replicate_iff.mpr ⟨rfl, fun c hc => by simpa using List.mem_takeWhile_imp hc⟩
    rw [← htake]
    exact (Reads.star_single (Reads.lit_single '#') rest).push
  fun_cases rawFromR cs with
  | case1 rest hashes body hbody =>
    have htail :
        Reads (.inOrder [.lit ['"'], .star (.anyBut (.seq (.lit ['"']) .peek)), .lit ['"']] .pop)
        (List.replicate hashes '#' :: s) s (rest.drop hashes) ((rawTail hashes body).map (1 + ·)) :=
      hbody ▸ (Reads.lit ['"'] body).seq (reads_rawTail hashes body)
    have hall := (Reads.lit ['r'] rest).seq ((hpush rest).seq htail)
    have hsum : (1 + ·) ∘ (hashes + ·) ∘ (1 + ·) = (2 + hashes + ·) := by
      funext k
      simp only [Function.comp_apply]
      omega
    rw [← hsum, ← Option.map_map, ← Option.map_map]
    exact hall
  | case2 rest hashes hno_quote =>
    have hquote : Parses (.lit ['"']) (List.replicate hashes '#' :: s) (rest.drop hashes) none :=
      Parses.lit_fail hno_quote
    exact (Reads.lit ['r'] rest).seq ((hpush rest).seq (r := none) (Parses.seq_fail hquote))
  | case3 _ hnone => exact Parses.seq_fail (Parses.lit_fail hnone)

/-- Raw strings are read as far as they reach. -/
theorem reads_rawString (cs : List Char) :
    Reads (LeafKind.body .rawString) s s cs (rawString cs) := by
  fun_cases rawString cs with
  | case1 rest => exact (reads_rawFromR rest).byteMark
  | case2 _ hmark => exact (reads_rawFromR cs).no_byteMark hmark

/-- A backslash needs a character to take with it. -/
theorem escape_none (h : ∀ c rest, cs = '\\' :: c :: rest → False) (hb : Parses b s [] none) :
    Parses (.seq (.lit ['\\']) b) s cs none := by
  cases cs with
  | nil => exact Parses.seq_fail (Parses.lit_fail (by simp))
  | cons c rest =>
    by_cases hslash : c = '\\'
    · subst hslash
      have hlast : rest = [] := by
        cases rest with
        | nil => rfl
        | cons d after => exact (h d after rfl).elim
      subst hlast
      exact Parses.seq (Parses.lit rfl) hb
    · exact Parses.seq_fail (Parses.lit_fail (by simp [hslash]))

/-- The rest of a string is read as far as it reaches. -/
theorem reads_stringTail (cs : List Char) :
    Reads (.seq (.star (.alt (.seq (.lit ['\\']) .any) (.anyBut (.lit ['"'])))) (.lit ['"'])) s s cs
      (stringTail cs) := by
  fun_induction stringTail cs with
  | case1 =>
    have hquote : Parses (.lit ['"']) s [] none := Parses.lit_fail (by simp)
    refine Reads.star_seq_end ?_ hquote
    exact Parses.alt_fail (Parses.seq_fail (Parses.lit_fail (by simp))) (Reads.anyBut_nil hquote)
  | case2 rest =>
    have hquote : Reads (.lit ['"']) s s ('"' :: rest) (some 1) := Reads.lit ['"'] rest
    refine Reads.star_seq_end ?_ hquote
    exact Parses.alt_fail (Parses.seq_fail (Parses.lit_fail (by simp))) (Reads.anyBut_none hquote)
  | case3 c rest ih =>
    have hescape : Reads (.seq (.lit ['\\']) .any) s s ('\\' :: c :: rest) (some 2) :=
      (Reads.lit ['\\'] (c :: rest)).seq (Reads.any c rest)
    exact Reads.star_seq_more (Reads.alt_left hescape) ih
  | case4 c rest hquote hescape ih =>
    have hchar : Reads (.anyBut (.lit ['"'])) s s (c :: rest) (some 1) :=
      Reads.anyBut (Parses.lit_fail (by simpa using hquote))
    have hlast : Parses (.seq (.lit ['\\']) .any) s (c :: rest) none :=
      escape_none (by simpa using hescape) (Parses.char_fail (by simp))
    exact Reads.star_seq_more (Reads.alt_right hlast hchar) ih

/-- A string is read from its quote on. -/
theorem reads_stringFromQuote (cs : List Char) :
    Reads (.inOrder [.lit ['"'], .star (.alt (.seq (.lit ['\\']) .any) (.anyBut (.lit ['"'])))]
      (.lit ['"'])) s s cs
      (stringFromQuote cs) := by
  fun_cases stringFromQuote cs with
  | case1 rest => exact (Reads.lit ['"'] rest).seq (reads_stringTail rest)
  | case2 _ hnone => exact Parses.seq_fail (Parses.lit_fail hnone)

/-- Strings are read as far as they reach. -/
theorem reads_stringLiteral (cs : List Char) :
    Reads (LeafKind.body .string) s s cs (stringLiteral cs) := by
  fun_cases stringLiteral cs with
  | case1 rest => exact (reads_stringFromQuote rest).byteMark
  | case2 _ hmark => exact (reads_stringFromQuote cs).no_byteMark hmark

/-- What stands between the quotes of a character literal. -/
def Peg.charBody : Peg :=
  .alt (.inOrder [.lit ['\\'], .any] (.star (.anyBut (.lit ['\'']))))
    (.anyBut (.alt (.lit ['\'']) (.lit ['\\'])))

/-- Behind a backslash everything up to the closing quote is read. -/
theorem reads_charBody_escaped (c : Char) (rest : List Char) :
    Reads .charBody s s ('\\' :: c :: rest) (some (2 + (rest.takeWhile (· != '\'')).length)) := by
  have hrest := Reads.star_single (s := s) (fun cs => (Reads.lit_single '\'' cs).anyBut_single) rest
  have hescape := (Reads.lit ['\\'] (c :: rest)).seq ((Reads.any c rest).seq hrest)
  rw [show 2 = 1 + 1 from rfl, Nat.add_assoc]
  exact Reads.alt_left hescape

/-- Without a backslash one character is read, which is no quote. -/
theorem reads_charBody_plain (h : ∀ c rest, cs = '\\' :: c :: rest → False) :
    Reads .charBody s s cs (single (fun c => !(c == '\'' || c == '\\')) cs) := by
  have hplain :=
    ((Reads.lit_single (s := s) '\'' cs).alt_single (Reads.lit_single '\\' cs)).anyBut_single
  refine Reads.alt_right ?_ hplain
  exact escape_none h (Parses.seq_fail (Parses.char_fail (by simp)))

/-- Behind the characters other than `d` there is `d`, or nothing. -/
theorem single_behind (d : Char) (cs : List Char) :
    single (· == d) (cs.drop (cs.takeWhile (· != d)).length) =
      if (cs.drop (cs.takeWhile (· != d)).length).isEmpty then none else some 1 := by
  induction cs with
  | nil => rfl
  | cons c rest ih =>
    by_cases h : c = d
    · simp [h, single]
    · simpa only [List.takeWhile_cons, bne_iff_ne, ne_eq, h, not_false_eq_true, if_true,
        List.length_cons, List.drop_succ_cons] using ih

/-- A character literal is read from its quote on. -/
theorem reads_charFromQuote (cs : List Char) :
    Reads (.inOrder [.lit ['\''], .charBody] (.lit ['\''])) s s cs (charFromQuote cs) := by
  have hfull {rest : List Char} {n : Nat} (h : Reads .charBody s s rest (some n)) :=
    (Reads.lit ['\''] rest).seq (h.seq (Reads.lit_single '\'' (rest.drop n)))
  have hempty {rest : List Char} (h : Parses .charBody s rest none) :
      Parses (.inOrder [.lit ['\''], .charBody] (.lit ['\''])) s ('\'' :: rest) none :=
    (Reads.lit ['\''] rest).seq (u := s) (r := none) (Parses.seq_fail h)
  have hbehind (c : Char) (rest : List Char) (n : Nat) :
      ('\\' :: c :: rest).drop (2 + n) = rest.drop n := by
    simp [Nat.add_comm]
  fun_cases charFromQuote cs with
  | case1 c rest n hend =>
    have h := hfull (reads_charBody_escaped c rest)
    rw [hbehind, single_behind, if_pos hend] at h
    exact h
  | case2 c rest n hend =>
    have h := hfull (reads_charBody_escaped c rest)
    rw [hbehind, single_behind, if_neg hend] at h
    rw [show 3 + n + 1 = 1 + (2 + n + 1) by omega]
    exact h
  | case3 c rest hc h =>
    have hplain : Reads .charBody s s (c :: '\'' :: rest) _ :=
      reads_charBody_plain (by simpa using hc)
    simp only [single, h] at hplain
    exact hempty hplain
  | case4 c rest hc h =>
    have hplain : Reads .charBody s s (c :: '\'' :: rest) _ :=
      reads_charBody_plain (by simpa using hc)
    simp only [single, h] at hplain
    exact hfull hplain
  | case5 _ hescaped hquoted =>
    by_cases hopen : ∃ rest, cs = '\'' :: rest
    · obtain ⟨rest, rfl⟩ := hopen
      have hplain : Reads .charBody s s rest _ := reads_charBody_plain (by simpa using hescaped)
      cases hread : single (fun c => !(c == '\'' || c == '\\')) rest with
      | none =>
        rw [hread] at hplain
        exact hempty hplain
      | some n =>
        rw [hread] at hplain
        have hquote : single (· == '\'') (rest.drop n) = none := by
          obtain ⟨c, after, rfl, rfl⟩ := exists_of_single hread
          cases after with
          | nil => rfl
          | cons d more =>
            have hd : d ≠ '\'' := fun hd => hquoted c more (by rw [hd])
            simp [single, hd]
        have h := hfull hplain
        rw [hquote] at h
        exact h
    · exact Parses.seq_fail (Parses.lit_fail (by simpa using hopen))

/-- Character literals are read as far as they reach. -/
theorem reads_charLiteral (cs : List Char) :
    Reads (LeafKind.body .charLiteral) s s cs (charLiteral cs) := by
  fun_cases charLiteral cs with
  | case1 rest => exact (reads_charFromQuote rest).byteMark
  | case2 _ hmark => exact (reads_charFromQuote cs).no_byteMark hmark

/-! ## Names, numbers and members -/

/-- An identifier is read as far as it reaches. -/
theorem reads_ident (cs : List Char) : Reads (LeafKind.body .ident) s s cs (identLength cs) := by
  have h : Reads (LeafKind.body .ident) s s cs _ :=
    Reads.char_star Text.isNameStart Text.isNameContinue cs
  cases cs with
  | nil => exact h
  | cons c rest => by_cases hc : Text.isNameStart c <;> simpa [single, identLength, hc] using h

/-- A number is read as far as it reaches. -/
theorem reads_number (cs : List Char) : Reads (LeafKind.body .number) s s cs (number cs) := by
  have h : Reads (LeafKind.body .number) s s cs _ :=
    Reads.char_star Char.isDigit (fun d => d.isAlphanum || d == '_') cs
  cases cs with
  | nil => exact h
  | cons c rest => by_cases hc : c.isDigit <;> simpa [single, number, hc] using h

/-- A quote and the identifier behind it are read as far as they reach. -/
theorem reads_lifetime (cs : List Char) : Reads (LeafKind.body .lifetime) s s cs (lifetime cs) := by
  fun_cases lifetime cs with
  | case1 rest => exact (Reads.lit ['\''] rest).seq (Reads.leaf (reads_ident rest))
  | case2 _ hnone => exact Parses.seq_fail (Parses.lit_fail hnone)

/-- Two dots are read, with the equals sign if there is one. -/
theorem reads_range (cs : List Char) : Reads (LeafKind.body .range) s s cs (range cs) := by
  fun_cases range cs with
  | case1 rest =>
    exact (Reads.lit ['.', '.'] ('=' :: rest)).seq (Reads.alt_left (Reads.lit ['='] rest))
  | case2 rest hequals =>
    have hopen : Parses (.lit ['=']) s rest none := Parses.lit_fail hequals
    exact (Reads.lit ['.', '.'] rest).seq (Reads.alt_right hopen (Reads.lit [] rest))
  | case3 _ _ hnone => exact Parses.seq_fail (Parses.lit_fail hnone)

/-- An identifier is read with the white space before it. -/
theorem reads_spacedIdent (cs : List Char) :
    Reads (.seq .blanks (.rule (.leaf .ident))) s s cs (spacedIdent cs) :=
  (Reads.star_single (Reads.char Text.isWhite) cs).seq (Reads.leaf (reads_ident _))

/-- An access to a member is read as far as it reaches. -/
theorem reads_member (cs : List Char) : Reads (LeafKind.body .member) s s cs (member cs) := by
  fun_cases member cs with
  | case1 rest => exact (Reads.alt_left (Reads.lit [':', ':'] rest)).seq (reads_spacedIdent rest)
  | case2 rest =>
    have hpath : Parses (.lit [':', ':']) s ('.' :: rest) none := Parses.lit_fail (by simp)
    exact (Reads.alt_right hpath (Reads.lit ['.'] rest)).seq (reads_spacedIdent rest)
  | case3 _ hpath hdot =>
    exact Parses.seq_fail (Parses.alt_fail (Parses.lit_fail hpath) (Parses.lit_fail hdot))

/-! ## The first leaf of a text -/

/-- Each kind of leaf is read as far as its extent says. -/
theorem reads_leaf {kind : LeafKind} {extent : List Char → Option Nat}
    (h : (kind, extent) ∈ leafExtents) (cs : List Char) : Reads kind.body s s cs (extent cs) := by
  simp only [leafExtents, List.mem_cons, Prod.mk.injEq, List.not_mem_nil, or_false] at h
  rcases h with ⟨rfl, rfl⟩ | ⟨rfl, rfl⟩ | ⟨rfl, rfl⟩ | ⟨rfl, rfl⟩ | ⟨rfl, rfl⟩ | ⟨rfl, rfl⟩ |
    ⟨rfl, rfl⟩ | ⟨rfl, rfl⟩ |
    ⟨rfl, rfl⟩
  · exact reads_lineComment cs
  · exact reads_blockComment cs
  · exact reads_rawString cs
  · exact reads_stringLiteral cs
  · exact reads_charLiteral cs
  · exact reads_lifetime cs
  · exact reads_number cs
  · exact reads_range cs
  · exact reads_member cs

/-- A raw string is not empty. -/
theorem rawFromR_ne_zero (cs : List Char) : rawFromR cs ≠ some 0 := by
  fun_cases rawFromR cs <;> simp

/-- A string is not empty, quotes included. -/
theorem stringFromQuote_ne_zero (cs : List Char) : stringFromQuote cs ≠ some 0 := by
  fun_cases stringFromQuote cs <;> simp

/-- A character literal is not empty. -/
theorem charFromQuote_ne_zero (cs : List Char) : charFromQuote cs ≠ some 0 := by
  fun_cases charFromQuote cs <;> simp

/-- No piece is empty. -/
theorem extent_ne_zero {kind : LeafKind} {extent : List Char → Option Nat}
    (h : (kind, extent) ∈ leafExtents) (cs : List Char) : extent cs ≠ some 0 := by
  simp only [leafExtents, List.mem_cons, Prod.mk.injEq, List.not_mem_nil, or_false] at h
  rcases h with ⟨-, rfl⟩ | ⟨-, rfl⟩ | ⟨-, rfl⟩ | ⟨-, rfl⟩ | ⟨-, rfl⟩ | ⟨-, rfl⟩ | ⟨-, rfl⟩ |
    ⟨-, rfl⟩ | ⟨-, rfl⟩
  · fun_cases lineComment cs <;> simp
  · fun_cases blockComment cs <;> simp
  · fun_cases rawString cs <;> simp [rawFromR_ne_zero]
  · fun_cases stringLiteral cs <;> simp [stringFromQuote_ne_zero]
  · fun_cases charLiteral cs <;> simp [charFromQuote_ne_zero]
  · fun_cases lifetime cs <;> simp
  · fun_cases number cs <;> simp
  · fun_cases range cs <;> simp
  · fun_cases member cs <;> simp

/-- The first of some leaves that starts the text, and how far it reaches. -/
def firstLeaf (leaves : List (LeafKind × (List Char → Option Nat))) (cs : List Char) :
    Option (LeafKind × Nat) :=
  leaves.findSome? fun leaf => (leaf.2 cs).map (leaf.1, ·)

/-- The first leaf is one of the leaves. -/
theorem exists_of_firstLeaf {leaves : List (LeafKind × (List Char → Option Nat))} {kind : LeafKind}
    (h : firstLeaf leaves cs = some (kind, n)) :
    ∃ leaf ∈ leaves, leaf.1 = kind ∧ leaf.2 cs = some n := by
  obtain ⟨leaf, hmem, hleaf⟩ := List.exists_of_findSome?_eq_some h
  obtain ⟨k, hk, hpair⟩ := Option.map_eq_some_iff.mp hleaf
  cases hpair
  exact ⟨leaf, hmem, rfl, hk⟩

/-- The first leaf is not empty. -/
theorem firstLeaf_pos {leaves : List (LeafKind × (List Char → Option Nat))} {kind : LeafKind}
    (hleaves : leaves ⊆ leafExtents) (h : firstLeaf leaves cs = some (kind, n)) : 0 < n := by
  obtain ⟨leaf, hmem, -, hn⟩ := exists_of_firstLeaf h
  refine Nat.pos_of_ne_zero ?_
  rintro rfl
  exact extent_ne_zero (hleaves hmem) cs hn

/-- The rules of leaves read the first leaf that is there. -/
theorem parses_firstLeaf {leaves : List (LeafKind × (List Char → Option Nat))} {kind : LeafKind}
    (hleaves : leaves ⊆ leafExtents) (h : firstLeaf leaves cs = some (kind, n)) :
    Parses (.choice (leaves.map fun leaf => .rule (.leaf leaf.1)) e) s cs
      (some ⟨cs.take n, [.node (.leaf kind) (cs.take n) []], cs.drop n, s⟩) := by
  induction leaves with
  | nil => simp [firstLeaf] at h
  | cons leaf leaves ih =>
    have hread : Reads (Rule.body (.leaf leaf.1)) s s cs (leaf.2 cs) :=
      reads_leaf (hleaves List.mem_cons_self) cs
    cases hfirst : leaf.2 cs with
    | none =>
      rw [hfirst] at hread
      have hothers : firstLeaf leaves cs = some (kind, n) := by simpa [firstLeaf, hfirst] using h
      exact Parses.alt_fail (Parses.rule hread) (ih (List.subset_of_cons_subset hleaves) hothers)
    | some k =>
      rw [hfirst] at hread
      obtain ⟨rfl, rfl⟩ : leaf.1 = kind ∧ k = n := by simpa [firstLeaf, hfirst] using h
      obtain ⟨nodes, hread⟩ := hread
      exact Parses.alt (Parses.rule hread)

/-- Where no leaf starts, the rules of leaves leave it to what stands behind them. -/
theorem parses_no_leaf {leaves : List (LeafKind × (List Char → Option Nat))}
    {result : Option Reading} (hleaves : leaves ⊆ leafExtents) (h : firstLeaf leaves cs = none)
    (he : Parses e s cs result) :
    Parses (.choice (leaves.map fun leaf => .rule (.leaf leaf.1)) e) s cs result := by
  induction leaves with
  | nil => exact he
  | cons leaf leaves ih =>
    have hread : Reads (Rule.body (.leaf leaf.1)) s s cs (leaf.2 cs) :=
      reads_leaf (hleaves List.mem_cons_self) cs
    cases hfirst : leaf.2 cs with
    | none =>
      rw [hfirst] at hread
      have hothers : firstLeaf leaves cs = none := by simpa [firstLeaf, hfirst] using h
      exact Parses.alt_fail (Parses.rule hread) (ih (List.subset_of_cons_subset hleaves) hothers)
    | some k => simp [firstLeaf, hfirst] at h

/-! ## Groups and arguments -/

/-- The leaves inside which nothing has a meaning. -/
def sealedLeaves : List (LeafKind × (List Char → Option Nat)) := leafExtents.take 5

/-- Sealed leaves are leaves. -/
theorem sealedLeaves_subset : sealedLeaves ⊆ leafExtents := List.take_subset 5 leafExtents

/-- A sealed item is the first of the sealed leaves. -/
theorem firstLeaf_sealedLeaves (cs : List Char) :
    (firstLeaf sealedLeaves cs).map Prod.snd = sealedItem cs := by
  simp only [firstLeaf, sealedLeaves, leafExtents, List.take, List.findSome?_cons, sealedItem]
  cases lineComment cs <;> cases blockComment cs <;> cases rawString cs <;>
    cases stringLiteral cs <;>
    cases charLiteral cs <;> rfl

/-- A sealed item is not empty. -/
theorem sealedItem_pos (h : sealedItem cs = some n) : 0 < n := by
  rw [← firstLeaf_sealedLeaves] at h
  obtain ⟨⟨kind, k⟩, hleaf, rfl⟩ := Option.map_eq_some_iff.mp h
  exact firstLeaf_pos sealedLeaves_subset hleaf

/-- A sealed item is read before anything else is tried. -/
theorem reads_sealed (h : sealedItem cs = some n) :
    Reads (.choice Peg.sealedRules e) s s cs (some n) := by
  rw [← firstLeaf_sealedLeaves] at h
  obtain ⟨⟨kind, k⟩, hleaf, rfl⟩ := Option.map_eq_some_iff.mp h
  exact ⟨_, parses_firstLeaf sealedLeaves_subset hleaf⟩

/-- Without a sealed item, what stands behind the rules for them is read. -/
theorem reads_unsealed (h : sealedItem cs = none) (he : Reads e s s cs r) :
    Reads (.choice Peg.sealedRules e) s s cs r := by
  rw [← firstLeaf_sealedLeaves, Option.map_eq_none_iff] at h
  cases r with
  | none => exact parses_no_leaf sealedLeaves_subset h he
  | some n =>
    obtain ⟨nodes, he⟩ := he
    exact ⟨nodes, parses_no_leaf sealedLeaves_subset h he⟩

/-- No group starts without an opening bracket. -/
theorem group_none (h : ∀ c rest, cs = c :: rest → closerOf c = none) :
    Parses (.rule .group) s cs none := by
  have hbracket (opener closer : Char) (hopener : closerOf opener ≠ none) :
      Parses (.bracketed opener closer) s cs none :=
    Parses.seq_fail (Parses.lit_fail fun rest hrest => hopener (h opener rest hrest))
  have hbody : Parses (Rule.body .group) s cs none :=
    Parses.alt_fail (hbracket '(' ')' (by decide)) (Parses.alt_fail (hbracket '[' ']' (by decide))
      (hbracket '{' '}' (by decide)))
  exact Parses.rule hbody

/-- A group is a bracket and what remains of the group behind it. -/
theorem Reads.group {closer : Char} (hc : closerOf c = some closer)
    (h : Reads (.seq (.star (.rule .groupPiece)) (.lit [closer])) s s rest r) :
    Reads (.rule .group) s s (c :: rest) (r.map (1 + ·)) := by
  have hthis : Reads (.bracketed c closer) s s (c :: rest) (r.map (1 + ·)) :=
    (Reads.lit [c] rest).seq h
  have hother {opener closer : Char} (hne : c ≠ opener) :
      Parses (.bracketed opener closer) s (c :: rest) none :=
    Parses.seq_fail (Parses.lit_fail (by simp [hne]))
  refine Reads.rule ?_
  simp only [closerOf, beq_iff_eq] at hc
  split at hc
  next hround =>
    subst hround
    cases hc
    have hnone : Parses (.alt (.bracketed '[' ']') (.bracketed '{' '}')) s ('(' :: rest) none :=
      Parses.alt_fail (hother (by decide)) (hother (by decide))
    exact hthis.alt_only hnone
  next hround =>
    refine Reads.alt_right (hother hround) ?_
    split at hc
    next hsquare =>
      subst hsquare
      cases hc
      have hnone : Parses (.bracketed '{' '}') s ('[' :: rest) none := hother (by decide)
      exact hthis.alt_only hnone
    next hsquare =>
      refine Reads.alt_right (hother hsquare) ?_
      split at hc
      next hcurly =>
        subst hcurly
        cases hc
        exact hthis
      next => simp at hc

/-- The character is an ordinary one inside a group unless it is a closing bracket. -/
theorem reads_ordinary (cs : List Char) :
    Reads (.anyBut (.choice [.lit [')'], .lit [']']] (.lit ['}']))) s s cs
      (single (fun c => !isCloser c) cs) := by
  have h := ((Reads.lit_single (s := s) ')' cs).alt_single
    ((Reads.lit_single ']' cs).alt_single (Reads.lit_single '}' cs))).anyBut_single
  have hclass : (fun c => !(c == ')' || (c == ']' || c == '}'))) = fun c => !isCloser c := by
    funext c
    rw [isCloser, Bool.or_assoc]
  rw [← hclass]
  exact h

/-- An opening bracket is no closing one. -/
theorem isCloser_of_closerOf {closer : Char} (h : closerOf c = some closer) :
    isCloser c = false := by
  by_contra hc
  simp only [isCloser, Bool.or_eq_true, beq_iff_eq, Bool.not_eq_false] at hc
  rcases hc with (rfl | rfl) | rfl <;> simp [closerOf] at h

/-- The rest of a group is read as far as it reaches, with the groups inside it. -/
theorem reads_groupTail (closer : Char) (cs : List Char) :
    Reads (.seq (.star (.rule .groupPiece)) (.lit [closer])) s s cs (groupTail closer cs) := by
  have hpiece {c : Char} {rest : List Char} {g : Option Nat}
    (hsealed : sealedItem (c :: rest) = none)
      (hgroup : Reads (.rule .group) s s (c :: rest) g) :
      Reads (.rule .groupPiece) s s (c :: rest) (g.or (if !isCloser c then some 1 else none)) := by
    have hbody :
        Reads (Rule.body .groupPiece) s s (c :: rest)
          (g.or (single (fun c => !isCloser c) (c :: rest))) :=
      reads_unsealed hsealed (hgroup.alt (reads_ordinary (c :: rest)))
    exact Reads.rule hbody
  -- A closing bracket ends the group, and then it has to be the right one.
  have hstop (closer : Char) {c : Char} {rest : List Char} (hsealed : sealedItem (c :: rest) = none)
      (hopens : closerOf c = none) (hcloses : isCloser c) :
      Reads (.seq (.star (.rule .groupPiece)) (.lit [closer])) s s (c :: rest)
        (single (· == closer) (c :: rest)) := by
    have hend := hpiece hsealed (g := none) (group_none (by simpa using hopens))
    rw [hcloses] at hend
    exact Reads.star_seq_end hend (Reads.lit_single closer (c :: rest))
  fun_induction groupTail closer cs with
  | case1 closer =>
    have hpiece : Reads (Rule.body .groupPiece) s s [] none :=
      reads_unsealed rfl (Reads.alt_right (group_none (by simp)) (reads_ordinary []))
    exact Reads.star_seq_end (Reads.rule (r := none) hpiece) (Reads.lit_single closer [])
  | case2 closer c rest n hsealed ih =>
    have hpiece : Reads (Rule.body .groupPiece) s s (c :: rest) (some n) := reads_sealed hsealed
    have hrest : (c :: rest).drop n = rest.drop (n - 1) := List.drop_cons (sealedItem_pos hsealed)
    exact Reads.star_seq_more (Reads.rule hpiece) (hrest ▸ ih)
  | case3 closer c rest hsealed inner hinner n hn ihinner ihouter =>
    rw [hn] at ihinner
    have hrest : (c :: rest).drop (1 + n) = rest.drop n := by simp [Nat.add_comm]
    exact Reads.star_seq_more (hpiece hsealed (ihinner.group hinner)) (hrest ▸ ihouter)
  | case4 closer c rest hsealed inner hinner hn ihinner ihouter =>
    rw [hn] at ihinner
    have hchar := hpiece hsealed (ihinner.group hinner)
    rw [isCloser_of_closerOf hinner] at hchar
    exact Reads.star_seq_more hchar ihouter
  | case5 closer c rest hsealed hopens hcloses hc =>
    simpa [single, hc] using hstop closer hsealed hopens hcloses
  | case6 closer c rest hsealed hopens hcloses hc =>
    simpa [single, hc] using hstop closer hsealed hopens hcloses
  | case7 closer c rest hsealed hopens hcloses ih =>
    have hchar := hpiece hsealed (g := none) (group_none (by simpa using hopens))
    rw [Bool.eq_false_iff.mpr hcloses] at hchar
    exact Reads.star_seq_more hchar ih

/-- A group is read as far as it reaches. -/
theorem reads_group (c : Char) (rest : List Char) :
    Reads (.rule .group) s s (c :: rest)
      (((closerOf c).bind fun closer => groupTail closer rest).map (1 + ·)) := by
  cases hc : closerOf c with
  | none => exact group_none (by simpa using hc)
  | some closer => exact (reads_groupTail closer rest).group hc

/-- An argument is read as far as it reaches; there always is one, which may be empty. -/
theorem reads_arg (cs : List Char) : Reads (Rule.body .arg) s s cs (some (argLength cs)) := by
  have hordinary (cs : List Char) : Reads (.anyBut (.alt (.lit [',']) (.lit [')']))) s s cs
      (single (fun c => !(c == ',' || c == ')')) cs) :=
    ((Reads.lit_single ',' cs).alt_single (Reads.lit_single ')' cs)).anyBut_single
  have hpiece {c : Char} {rest : List Char} (hsealed : sealedItem (c :: rest) = none) :
      Reads (Rule.body .argPiece) s s (c :: rest) _ :=
    reads_unsealed hsealed ((reads_group c rest).alt (hordinary (c :: rest)))
  fun_induction argLength cs with
  | case1 =>
    have hend : Reads (Rule.body .argPiece) s s [] none :=
      reads_unsealed rfl (Reads.alt_right (group_none (by simp)) (hordinary []))
    exact Reads.star_end (Reads.rule (r := none) hend)
  | case2 c rest n hsealed ih =>
    have hpiece : Reads (Rule.body .argPiece) s s (c :: rest) (some n) := reads_sealed hsealed
    have hrest : (c :: rest).drop n = rest.drop (n - 1) := List.drop_cons (sealedItem_pos hsealed)
    exact Reads.star_more (Reads.rule hpiece) (hrest ▸ ih)
  | case3 c rest hsealed n hn ih =>
    have hgroup := hpiece hsealed
    rw [hn] at hgroup
    have hrest : (c :: rest).drop (1 + n) = rest.drop n := by simp [Nat.add_comm]
    exact Reads.star_more (Reads.rule hgroup) (hrest ▸ ih)
  | case4 c rest hsealed hn hend =>
    have hpiece := hpiece hsealed
    simp only [hn, single, hend] at hpiece
    exact Reads.star_end (Reads.rule (r := none) hpiece)
  | case5 c rest hsealed hn hend ih =>
    have hchar := hpiece hsealed
    simp only [hn, single, hend] at hchar
    exact Reads.star_more (Reads.rule hchar) ih

end Statechart.Snippet
