import Statechart.Proofs.CodeNames
import Statechart.Proofs.Trimming

/-!
# Arguments of calls

A call is split at its own commas. A comma inside of brackets belongs to an argument, and so does
everything between an opening bracket and the one that closes it, to any depth. Here this is shown
for arguments in which brackets pair up and nothing starts a literal or a comment: the call that is
found has exactly the arguments that were put into it. The number of them decides whether a
registered function takes the call; a blank last argument does not count.
-/

namespace Statechart.Snippet

variable {c closer : Char} {cs rest arg inside : List Char} {pending : List Char}
  {args : List (List Char)} {n : Nat}

/-! ## Texts without literals and comments -/

/-- No character of the text is a quote or a slash, so no literal and no comment starts in it. -/
def Plain (cs : List Char) : Prop := ∀ c ∈ cs, c ≠ '"' ∧ c ≠ '\'' ∧ c ≠ '/'

instance : DecidablePred Plain := fun cs => List.decidableBAll _ cs

/-- A text and its first character. -/
theorem plain_cons : Plain (c :: rest) ↔ (c ≠ '"' ∧ c ≠ '\'' ∧ c ≠ '/') ∧ Plain rest :=
  List.forall_mem_cons

/-- Two texts. -/
theorem plain_append : Plain (cs ++ rest) ↔ Plain cs ∧ Plain rest := List.forall_mem_append

/-- A raw string has a quote in it. -/
theorem rawFromR_of_plain (h : Plain cs) : rawFromR cs = none := by
  fun_cases rawFromR cs with
  | case1 rest hashes body hbody =>
    have hquote : '"' ∈ rest := List.mem_of_mem_drop (hbody ▸ List.mem_cons_self)
    exact absurd rfl ((plain_cons.mp h).2 _ hquote).1
  | case2 => rfl
  | case3 => rfl

/-- A string starts with a quote. -/
theorem stringFromQuote_of_plain (h : Plain cs) : stringFromQuote cs = none := by
  fun_cases stringFromQuote cs with
  | case1 rest => exact absurd rfl (plain_cons.mp h).1.1
  | case2 => rfl

/-- A character literal starts with a quote. -/
theorem charFromQuote_of_plain (h : Plain cs) : charFromQuote cs = none := by
  cases cs with
  | nil => rfl
  | cons c rest =>
    have hquote := (plain_cons.mp h).1.2.1
    unfold charFromQuote
    split <;> simp_all

/-- No comment and no literal starts in a plain text. -/
theorem sealedItem_of_plain (h : Plain cs) : sealedItem cs = none := by
  cases cs with
  | nil => rfl
  | cons c rest =>
    obtain ⟨⟨-, -, hslash⟩, hrest⟩ := plain_cons.mp h
    have hline : lineComment (c :: rest) = none := by
      unfold lineComment
      split <;> simp_all
    have hblock : blockComment (c :: rest) = none := by
      unfold blockComment
      split <;> simp_all
    have hraw : rawString (c :: rest) = none := by
      by_cases hc : c = 'b'
      · simp [hc, rawString, rawFromR_of_plain hrest]
      · simp [rawString, hc, rawFromR_of_plain h]
    have hstring : stringLiteral (c :: rest) = none := by
      by_cases hc : c = 'b'
      · simp [hc, stringLiteral, stringFromQuote_of_plain hrest]
      · simp [stringLiteral, hc, stringFromQuote_of_plain h]
    have hchar : charLiteral (c :: rest) = none := by
      by_cases hc : c = 'b'
      · simp [hc, charLiteral, charFromQuote_of_plain hrest]
      · simp [charLiteral, hc, charFromQuote_of_plain h]
    simp [sealedItem, hline, hblock, hraw, hstring, hchar]

/-! ## Nested brackets -/

/-- Whether the brackets of the text close those that are pending, innermost first, and pair up
otherwise, while no comma stands outside of all brackets. -/
def nests (pending : List Char) : List Char → Bool
  | [] => pending.isEmpty
  | c :: rest =>
    match closerOf c with
    | some closer => nests (closer :: pending) rest
    | none =>
      if isCloser c then pending.head? == some c && nests pending.tail rest
      else (c != ',' || !pending.isEmpty) && nests pending rest

/-- The text of an argument: no quotes and slashes, nested brackets, and commas only
inside of brackets. -/
structure IsArgument (arg : List Char) : Prop where
  plain : Plain arg
  nests : nests [] arg

instance : DecidablePred IsArgument := fun _ =>
  decidable_of_iff (_ ∧ _) ⟨fun h => ⟨h.1, h.2⟩, fun h => ⟨h.plain, h.nests⟩⟩

/-- A bracket that opens is pending. -/
theorem nests_opener (h : closerOf c = some closer) :
    nests pending (c :: rest) = nests (closer :: pending) rest := by
  simp [nests, h]

/-- A bracket that closes is the innermost pending one. -/
theorem nests_closer (hopen : closerOf c = none) (hclose : isCloser c) :
    nests pending (c :: rest) ↔ pending.head? = some c ∧ nests pending.tail rest := by
  simp [nests, hopen, hclose]

/-- Any other character may stand in the text, commas only if a bracket is pending. -/
theorem nests_ordinary (hopen : closerOf c = none) (hclose : isCloser c = false) :
    nests pending (c :: rest) ↔ (c = ',' → pending ≠ []) ∧ nests pending rest := by
  simp [nests, hopen, hclose, Decidable.imp_iff_not_or]

/-- A group is read up to the bracket that closes it. -/
theorem exists_groupTail (hplain : Plain (inside ++ rest)) (h : nests (closer :: pending) inside) :
    ∃ n ≤ inside.length, groupTail closer (inside ++ rest) = some n ∧
      nests pending (inside.drop n) := by
  induction hlength : inside.length using Nat.strongRecOn generalizing inside closer pending with
  | ind length ih =>
    subst hlength
    cases inside with
    | nil => simp [nests] at h
    | cons c inside =>
      have hsealed := sealedItem_of_plain hplain
      have hbehind := (plain_cons.mp hplain).2
      rw [List.cons_append] at hsealed ⊢
      rw [groupTail, hsealed]
      cases hopen : closerOf c with
      | some inner =>
        rw [nests_opener hopen] at h
        obtain ⟨m, hm, hgroup, hnests⟩ := ih _ (by simp) hbehind h rfl
        have hdrop : (inside ++ rest).drop m = inside.drop m ++ rest :=
          List.drop_append_of_le_length hm
        have hplain' : Plain (inside.drop m ++ rest) :=
          fun d hd => hbehind d (List.mem_of_mem_drop (hdrop ▸ hd))
        have hshorter : (inside.drop m).length < (c :: inside).length := by
          simp only [List.length_drop, List.length_cons]
          omega
        obtain ⟨k, hk, hmore, hrest⟩ := ih _ hshorter hplain' hnests rfl
        refine ⟨1 + m + k, ?_, ?_, ?_⟩
        · simp only [List.length_cons, List.length_drop] at hk ⊢
          omega
        · simp [hgroup, hdrop, hmore]
        · rw [show 1 + m + k = (m + k) + 1 by omega, List.drop_succ_cons, ← List.drop_drop]
          exact hrest
      | none =>
        by_cases hclose : isCloser c
        · obtain ⟨hhead, hnests⟩ := (nests_closer hopen hclose).mp h
          obtain rfl := Option.some.inj hhead
          exact ⟨1, by simp, by simp [hclose], hnests⟩
        · obtain ⟨-, hnests⟩ := (nests_ordinary hopen (by simpa using hclose)).mp h
          obtain ⟨m, hm, hmore, hrest⟩ := ih _ (by simp) hbehind hnests rfl
          refine ⟨1 + m, ?_, by simp [hclose, hmore], ?_⟩
          · simp only [List.length_cons]
            omega
          · rw [Nat.add_comm, List.drop_succ_cons]
            exact hrest

/-- An argument ends at the comma or the parenthesis behind it. -/
theorem argLength_of_nests {mark : Char} (hmark : mark = ',' ∨ mark = ')')
    (hplain : Plain (arg ++ mark :: rest)) (h : nests [] arg) :
    argLength (arg ++ mark :: rest) = arg.length := by
  induction hlength : arg.length using Nat.strongRecOn generalizing arg with
  | ind length ih =>
    subst hlength
    have hsealed := sealedItem_of_plain hplain
    cases arg with
    | nil =>
      rw [List.nil_append] at hsealed ⊢
      rw [argLength, hsealed]
      rcases hmark with rfl | rfl <;> simp [closerOf]
    | cons c arg =>
      have hbehind := (plain_cons.mp hplain).2
      rw [List.cons_append] at hsealed ⊢
      rw [argLength, hsealed]
      cases hopen : closerOf c with
      | some closer =>
        rw [nests_opener hopen] at h
        obtain ⟨n, hn, hgroup, hnests⟩ := exists_groupTail hbehind h
        have hdrop : (arg ++ mark :: rest).drop n = arg.drop n ++ mark :: rest :=
          List.drop_append_of_le_length hn
        have hplain' : Plain (arg.drop n ++ mark :: rest) :=
          fun d hd => hbehind d (List.mem_of_mem_drop (hdrop ▸ hd))
        have hmore :=
          ih _ (by simp only [List.length_drop, List.length_cons]; omega) hplain' hnests rfl
        simp only [Option.bind_some, hgroup, hdrop, hmore, List.length_drop, List.length_cons]
        omega
      | none =>
        by_cases hclose : isCloser c
        · simpa using ((nests_closer hopen hclose).mp h).1
        · obtain ⟨hcomma, hnests⟩ := (nests_ordinary hopen (by simpa using hclose)).mp h
          have hmore := ih _ (by simp) hbehind hnests rfl
          have hparen : c ≠ ')' := by
            rintro rfl
            exact hclose rfl
          have hne : c ≠ ',' := fun hc => hcomma hc rfl
          simp [hparen, hne, hmore, Nat.add_comm]

/-! ## Calls -/

/-- An argument that the call's parenthesis ends is the last one. -/
theorem argsFrom_close (h : cs.drop (argLength cs) = ')' :: rest) :
    argsFrom cs = some [cs.take (argLength cs)] := by
  fun_cases argsFrom cs with
  | case1 => rfl
  | case2 after hcomma => cases h.symm.trans hcomma
  | case3 hclose => exact absurd h (hclose rest)

/-- Behind an argument that a comma ends there are more. -/
theorem argsFrom_comma (h : cs.drop (argLength cs) = ',' :: rest) :
    argsFrom cs = (argsFrom rest).map (cs.take (argLength cs) :: ·) := by
  fun_cases argsFrom cs with
  | case1 after hclose => cases h.symm.trans hclose
  | case2 after hcomma =>
    obtain rfl := (List.cons.inj (h.symm.trans hcomma)).2
    rfl
  | case3 hclose hcomma => exact absurd h (hcomma rest)

/-- A text with commas between plain texts is plain. -/
theorem plain_intercalate (h : ∀ arg ∈ args, IsArgument arg) : Plain ([','].intercalate args) := by
  induction args with
  | nil => simp [Plain]
  | cons first others ih =>
    obtain ⟨hfirst, hothers⟩ := List.forall_mem_cons.mp h
    cases others with
    | nil => simpa using hfirst.plain
    | cons second others =>
      rw [intercalate_comma (List.cons_ne_nil second others), plain_append, plain_cons]
      exact ⟨hfirst.plain, by decide, ih hothers⟩

/-- The arguments that are put between parentheses are the ones that are found there. -/
theorem argsFrom_intercalate (hne : args ≠ []) (hargs : ∀ arg ∈ args, IsArgument arg)
    (hrest : Plain rest) :
    argsFrom ([','].intercalate args ++ ')' :: rest) = some args := by
  have hplain : Plain ([','].intercalate args ++ ')' :: rest) :=
    plain_append.mpr ⟨plain_intercalate hargs, plain_cons.mpr ⟨by decide, hrest⟩⟩
  induction args with
  | nil => exact absurd rfl hne
  | cons first others ih =>
    obtain ⟨hfirst, hothers⟩ := List.forall_mem_cons.mp hargs
    cases others with
    | nil =>
      rw [List.intercalate_singleton] at hplain ⊢
      have hlength := argLength_of_nests (.inr rfl) hplain hfirst.nests
      have hdrop : (first ++ ')' :: rest).drop (argLength (first ++ ')' :: rest)) =
          ')' :: rest := by
        rw [hlength, List.drop_left]
      rw [argsFrom_close hdrop, hlength, List.take_left]
    | cons second others =>
      rw [intercalate_comma (List.cons_ne_nil second others), List.append_assoc,
        List.cons_append] at hplain ⊢
      have hlength := argLength_of_nests (.inl rfl) hplain hfirst.nests
      have hmore :=
        ih (List.cons_ne_nil second others) hothers (plain_cons.mp (plain_append.mp hplain).2).2
      rw [argsFrom_comma (by rw [hlength, List.drop_left]), hlength, List.take_left, hmore]
      rfl

/-- An identifier ends where a character that belongs to none follows. -/
theorem identLength_append {name : List Char} (h : IsIdent name)
    (hc : Text.isNameContinue c = false) :
    identLength (name ++ c :: rest) = some name.length := by
  cases name with
  | nil => simp [IsIdent, identLength] at h
  | cons d name =>
    obtain ⟨hd, hname⟩ := isIdent_cons_iff.mp h
    have htake : (name ++ c :: rest).takeWhile Text.isNameContinue = name := by
      rw [List.takeWhile_append_of_pos (by simpa using hname),
        List.takeWhile_cons_of_neg (by simp [hc]), List.append_nil]
    simp [identLength, hd, htake, Nat.add_comm]

/-- A name and arguments in parentheses are a call with these arguments. -/
theorem callAt_of_arguments {name : List Char} (hname : IsIdent name) (hne : args ≠ [])
    (hargs : ∀ arg ∈ args, IsArgument arg) (hrest : Plain rest) :
    callAt (name ++ '(' :: ([','].intercalate args ++ ')' :: rest)) = some ⟨name, [], args⟩ := by
  have hlength : identLength (name ++ '(' :: ([','].intercalate args ++ ')' :: rest)) =
      some name.length :=
    identLength_append hname (by decide)
  have hwhite : Text.isWhite '(' = false := by decide
  simp [callAt, hlength, hwhite, argsFrom_intercalate hne hargs hrest]

/-- No identifier starts with a digit. -/
theorem isDigit_eq_false_of_isNameStart (h : Text.isNameStart c) : c.isDigit = false := by
  have hall : ∀ n ∈ List.range' 48 10, Text.isNameStart (Char.ofNat n) = false := by decide
  refine Bool.eq_false_iff.mpr fun hdigit => ?_
  have hc := Text.of_mem_codes (Text.isNameStart · = false) hall (Text.toNat_mem_of_isDigit hdigit)
  rw [h] at hc
  cases hc

/-- Where an identifier starts in a plain text, there is a call or the identifier alone. -/
theorem firstLeaf_of_isNameStart (hc : Text.isNameStart c) (h : Plain (c :: rest)) :
    firstLeaf leafExtents (c :: rest) = none := by
  obtain ⟨hline, hblock, hraw, hstring, hchar⟩ : lineComment (c :: rest) = none ∧
      blockComment (c :: rest) = none ∧
      rawString (c :: rest) = none ∧ stringLiteral (c :: rest) = none ∧
      charLiteral (c :: rest) = none := by
    simpa [sealedItem] using sealedItem_of_plain h
  have hquote : c ≠ '\'' := (plain_cons.mp h).1.2.1
  have hdot : c ≠ '.' := by
    rintro rfl
    exact absurd hc (by decide)
  have hcolon : c ≠ ':' := by
    rintro rfl
    exact absurd hc (by decide)
  simp [firstLeaf, leafExtents, hline, hblock, hraw, hstring, hchar, lifetime, hquote, number,
    isDigit_eq_false_of_isNameStart hc, range, member, hdot, hcolon]

/-- A call that no leaf comes before is the first piece. -/
theorem firstPiece_of_callAt {call : Call} (hleaf : firstLeaf leafExtents (c :: rest) = none)
    (hcall : callAt (c :: rest) = some call) : firstPiece c rest = .call call := by
  fun_cases firstPiece c rest with
  | case1 cs kind n hleaf' => cases hleaf.symm.trans hleaf'
  | case2 cs _ call' hcall' =>
    obtain rfl := Option.some.inj (hcall.symm.trans hcall')
    rfl
  | case3 cs _ hcall' => cases hcall.symm.trans hcall'
  | case4 cs _ hcall' => cases hcall.symm.trans hcall'

/-- Names have no quotes and no slashes. -/
theorem plain_of_isIdent {name : List Char} (h : IsIdent name) : Plain name := by
  intro d hd
  have hcontinue := h.isNameContinue hd
  refine ⟨?_, ?_, ?_⟩ <;>
  · rintro rfl
    exact absurd hcontinue (by decide)

/-- The call of a name with arguments in parentheses. -/
theorem exists_firstPiece_call {name : List Char} (hname : IsIdent name) (hne : args ≠ [])
    (hargs : ∀ arg ∈ args, IsArgument arg) :
    ∃ c rest, (⟨name, [], args⟩ : Call).text = c :: rest ∧
      firstPiece c rest = .call ⟨name, [], args⟩ ∧
      behindFirst c rest = [] := by
  have hcall : callAt (name ++ '(' :: ([','].intercalate args ++ [')'])) = some ⟨name, [], args⟩ :=
    callAt_of_arguments hname hne hargs (by simp [Plain])
  have hplain : Plain (name ++ '(' :: ([','].intercalate args ++ [')'])) := by
    rw [plain_append, plain_cons, plain_append]
    exact ⟨plain_of_isIdent hname, by decide, plain_intercalate hargs, by simp [Plain]⟩
  cases name with
  | nil => simp [IsIdent, identLength] at hname
  | cons c name =>
    rw [List.cons_append] at hcall hplain
    have hleaf := firstLeaf_of_isNameStart (isIdent_cons_iff.mp hname).1 hplain
    have hfirst := firstPiece_of_callAt hleaf hcall
    refine ⟨c, name ++ '(' :: ([','].intercalate args ++ [')']), rfl, hfirst, ?_⟩
    have htext := text_append_behindFirst c (name ++ '(' :: ([','].intercalate args ++ [')']))
    rw [hfirst] at htext
    exact List.append_right_eq_self.mp htext

namespace Expander

variable {x : Expander} {ctx : Context} {deeper : Deeper}

/-! ## The number of arguments -/

/-- The number of arguments, not counting a last one that is blank. -/
def argCount (args : List (List Char)) : Nat :=
  if args.getLast?.any Text.isBlank then args.length - 1 else args.length

/-- As many arguments are handed over as are counted. -/
theorem length_givenArgs (args : List (List Char)) : (givenArgs args).length = argCount args := by
  have hblank : (args.map Text.trimChars).getLast? = some [] ↔ args.getLast?.any Text.isBlank := by
    rw [List.getLast?_map]
    cases args.getLast? with
    | none => simp
    | some last => simp [Text.trimChars_eq_nil_iff]
  simp only [givenArgs, argCount, hblank]
  split <;> simp

/-- Arguments that expand one by one expand together. -/
theorem mapM_eq_ok {expandArg : List Char → Except ExpansionError (List Char)}
    {texts : List (List Char)}
    (h : List.Forall₂ (fun arg text => expandArg arg = .ok text) args texts) :
    args.mapM expandArg = .ok texts := by
  induction h with
  | nil => rfl
  | cons hfirst _ ih =>
    rw [List.mapM_cons, hfirst, ih]
    rfl

/-- What a call of the function comes to once its arguments are counted: each of them expands, and
so does what the body makes of them. -/
def Completes (deeper : Deeper) (function : Function) (call : Call) (text : List Char) : Prop :=
  ∃ texts body,
    List.Forall₂ (fun arg text => deeper (String.ofList call.name) arg = .ok text)
      (givenArgs call.args) texts ∧
    function.body (texts.map String.ofList) = some body ∧
    deeper (String.ofList call.name) body.toList = .ok text

/-- A call with another number of arguments than the function takes is refused. -/
theorem applyFunction_of_ne {function : Function} {call : Call}
    (h : argCount call.args ≠ function.arity) :
    applyFunction deeper function call =
      .error (.wrongArgCount (String.ofList call.name) function.arity (argCount call.args)) := by
  rw [← length_givenArgs] at h ⊢
  rw [applyFunction, if_pos h]
  rfl

/-- A call with as many arguments as the function takes comes to what it completes to. -/
theorem applyFunction_of_eq {function : Function} {call : Call} {text : List Char}
    (h : argCount call.args = function.arity) (hcompletes : Completes deeper function call text) :
    applyFunction deeper function call = .ok text := by
  rw [← length_givenArgs] at h
  obtain ⟨texts, body, htexts, hbody, htext⟩ := hcompletes
  rw [applyFunction, if_neg (not_not_intro h), mapM_eq_ok htexts]
  simpa [bind, Except.bind, hbody] using htext

/-- The expansion of a call of a registered function. -/
theorem expand_call {name : List Char} {function : Function} (hname : IsIdent name)
    (hne : args ≠ []) (hargs : ∀ arg ∈ args, IsArgument arg)
    (hfunction : x.functions.lookup (String.ofList name) = some function) :
    x.expand ctx (String.ofList (⟨name, [], args⟩ : Call).text) =
      (applyFunction (x.expandAt ctx maxDepth) function ⟨name, [], args⟩).map String.ofList := by
  obtain ⟨c, rest, htext, hfirst, hbehind⟩ := exists_firstPiece_call hname hne hargs
  rw [expand, String.toList_ofList, expandAt, htext, expandPieces_cons, hfirst, hbehind]
  simp only [expandPiece, hfunction, expandPieces]
  cases applyFunction (x.expandAt ctx maxDepth) function ⟨name, [], args⟩ with
  | error e => rfl
  | ok text => exact congrArg (fun out => Except.ok (String.ofList out)) (List.append_nil text)

/-- A name and arguments in parentheses are read as one call with exactly these arguments, if no
argument has a quote or a slash in it, its brackets are nested and its commas stand inside of them.
A function of that name refuses the call if it takes another number of arguments, a blank last one
not counted. It refuses for this reason only, provided the arguments and what the body makes of them
can be expanded where their number is right. -/
theorem calls_split_at_outer_commas {f text : List Char} (hf : IsIdent f) (hne : args ≠ [])
    (hargs : ∀ arg ∈ args, IsArgument arg)
    (htext : text = f ++ '(' :: ([','].intercalate args ++ [')'])) :
    (∀ result, Parses (.rule .code) [] text result ↔
      result = some ⟨text, [.node .code text [Call.node ⟨f, [], args⟩, Node.eoi]], [], []⟩) ∧
    ∀ (x : Expander) (ctx : Context) (function : Function),
      x.functions.lookup (String.ofList f) = some function →
      (argCount args ≠ function.arity → x.expand ctx (String.ofList text) =
        .error (.wrongArgCount (String.ofList f) function.arity (argCount args))) ∧
      ((argCount args = function.arity →
        ∃ out, Completes (x.expandAt ctx maxDepth) function ⟨f, [], args⟩ out) →
        ((∃ name expected found, x.expand ctx (String.ofList text) =
          .error (.wrongArgCount name expected found)) ↔
          argCount args ≠ function.arity)) := by
  subst htext
  constructor
  · obtain ⟨c, rest, htext, hfirst, hbehind⟩ := exists_firstPiece_call hf hne hargs
    have hscan : scan (⟨f, [], args⟩ : Call).text = [.call ⟨f, [], args⟩] := by
      rw [htext, scan_cons, hfirst, hbehind, scan]
    have hcode := parses_code (s := []) (⟨f, [], args⟩ : Call).text
    rw [hscan] at hcode
    exact fun result => ⟨fun h => h.unique hcode, fun h => h ▸ hcode⟩
  · intro x ctx function hfunction
    have hexpand : x.expand ctx (String.ofList (f ++ '(' :: ([','].intercalate args ++ [')']))) =
        (applyFunction (x.expandAt ctx maxDepth) function ⟨f, [], args⟩).map String.ofList :=
      expand_call hf hne hargs hfunction
    have hrefused (h : argCount args ≠ function.arity) :=
      hexpand.trans (congrArg _ (applyFunction_of_ne h))
    refine ⟨hrefused, fun hcompletes => ⟨?_, fun h => ⟨_, _, _, hrefused h⟩⟩⟩
    rintro ⟨name, expected, found, herror⟩ hcount
    obtain ⟨out, hout⟩ := hcompletes hcount
    rw [hexpand, applyFunction_of_eq hcount hout] at herror
    cases herror

/-- A function of the given arity that joins its arguments. -/
def joining (arity : Nat) : Expander :=
  Expander.addFunction {} "join" ⟨arity, fun args => some (String.join args)⟩

/-- Two arguments with commas in brackets, and a blank one. -/
def nestedArgs : List (List Char) := ["a[0, (1, 2)]".toList, " \x7bb, c\x7d".toList, " ".toList]

/-- The nested arguments are two: too few for a function that takes three, and just right for one
that takes two. -/
theorem joining_counts_nestedArgs :
    (joining 3).expand {} "join(a[0, (1, 2)], \x7bb, c\x7d, )" =
      .error (.wrongArgCount "join" 3 2) ∧
    ¬ ∃ name expected found,
      (joining 2).expand {} "join(a[0, (1, 2)], \x7bb, c\x7d, )" =
        .error (.wrongArgCount name expected found) := by
  have hargs : ∀ arg ∈ nestedArgs, IsArgument arg := by decide
  have h :=
    (calls_split_at_outer_commas (f := "join".toList) (by unfold IsIdent; decide) (by decide)
      hargs rfl).2
  refine ⟨(h (joining 3) {} _ rfl).1 (by decide), fun hwrong => ?_⟩
  refine ((h (joining 2) {} _ rfl).2 fun _ => ?_).mp hwrong (by decide)
  refine ⟨_, _, _, .cons (expandPieces_eq_self ?_) (.cons (expandPieces_eq_self ?_) .nil), rfl,
    expandPieces_eq_self ?_⟩
  all_goals decide +kernel

end Expander

end Statechart.Snippet
