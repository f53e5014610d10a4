import Mathlib.Data.List.Forall2
import Statechart.Proofs.Expansion

/-!
# Names in code position

An expander looks at identifiers and at calls, and at nothing else. The names that it can meet in a
text are the identifiers among its pieces, the names of its calls, and the names in what follows the
name of a call, which is cut into pieces anew. A name inside a comment, a literal, a lifetime or a
member access is not among them.

A text is expanded piece by piece. A piece none of whose names is registered is copied, so a text
without registered names is its own expansion, however its calls are nested and however malformed it
is.
-/

namespace Statechart.Snippet

variable {c : Char} {cs rest name text : List Char} {piece : Piece}

/-! ## The names of a text -/

/-- A call among the pieces of a text leaves a shorter text behind its name. -/
theorem tail_length_lt_of_mem_scan {call : Call} (h : .call call ∈ scan cs) :
    call.tail.length < cs.length := by
  fun_induction scan cs with
  | case1 => simp at h
  | case2 c rest first ih =>
    rcases List.mem_cons.mp h with hfirst | h
    · exact firstPiece_call_tail_length_lt hfirst.symm
    · have hlength := ih h
      simp only [List.length_drop] at hlength
      simp only [List.length_cons]
      omega

/-- The names in code position: the identifiers of a text, and for each of its calls the name of the
call and the names of what follows it. -/
def names (cs : List Char) : List (List Char) :=
  (scan cs).attach.flatMap fun
    | ⟨.leaf .ident name, _⟩ => [name]
    | ⟨.leaf _ _, _⟩ => []
    | ⟨.call call, hcall⟩ =>
      have := tail_length_lt_of_mem_scan hcall
      call.name :: names call.tail
termination_by cs.length

/-- The names of a piece. -/
def Piece.names : Piece → List (List Char)
  | leaf .ident name => [name]
  | leaf _ _ => []
  | call body => body.name :: Snippet.names body.tail

/-- The names of a text are those of its pieces. -/
theorem names_eq_flatMap (cs : List Char) : names cs = (scan cs).flatMap Piece.names := by
  rw [names, List.flatMap_subtype, List.unattach_attach]
  rintro piece hpiece
  cases piece with
  | leaf kind text => cases kind <;> rfl
  | call call => rfl

/-- What follows the first piece of a text. -/
def behindFirst (c : Char) (rest : List Char) : List Char :=
  rest.drop ((firstPiece c rest).text.length - 1)

/-- A text that is not empty has a first piece and more pieces behind it. -/
theorem scan_cons (c : Char) (rest : List Char) :
    scan (c :: rest) = firstPiece c rest :: scan (behindFirst c rest) := by
  rw [scan, behindFirst]

/-- The names of the first piece come first. -/
theorem names_cons (c : Char) (rest : List Char) :
    names (c :: rest) = (firstPiece c rest).names ++ names (behindFirst c rest) := by
  rw [names_eq_flatMap, scan_cons, List.flatMap_cons, ← names_eq_flatMap]

/-- An empty text has no names. -/
theorem names_nil : names [] = [] := by
  rw [names_eq_flatMap, scan, List.flatMap_nil]

/-- Induction over the pieces of a text, into what follows the name of a call. -/
theorem piece_induction {motive : List Char → Prop} (nil : motive [])
    (cons : ∀ c rest, (∀ call, firstPiece c rest = .call call → motive call.tail) →
      motive (behindFirst c rest) →
      motive (c :: rest)) (cs : List Char) : motive cs := by
  induction hlength : cs.length using Nat.strongRecOn generalizing cs with
  | ind length ih =>
    subst hlength
    cases cs with
    | nil => exact nil
    | cons c rest =>
      refine cons c rest (fun call hcall => ?_) ?_
      · exact ih _ (firstPiece_call_tail_length_lt hcall) call.tail rfl
      · have hlength : (behindFirst c rest).length < (c :: rest).length := by
          simp only [behindFirst, List.length_drop, List.length_cons]
          omega
        exact ih _ hlength (behindFirst c rest) rfl

/-- The first piece and what follows it make up the text. -/
theorem text_append_behindFirst (c : Char) (rest : List Char) :
    (firstPiece c rest).text ++ behindFirst c rest = c :: rest := by
  obtain ⟨after, htext, hne, -⟩ := parses_firstPiece (s := []) c rest
  rw [behindFirst, drop_firstPiece htext hne, ← htext]

namespace Expander

variable {x : Expander} {ctx : Context} {deeper : Deeper} {out : List Char} {e : ExpansionError}

/-! ## Expansion piece by piece -/

/-- Two steps succeed if the first one does, and the second one from there. -/
theorem bind_eq_ok_iff {α β : Type} {first : Except ExpansionError α}
    {second : α → Except ExpansionError β} {b : β} :
    (first >>= second) = .ok b ↔ ∃ a, first = .ok a ∧ second a = .ok b := by
  cases first with
  | error e => simp [bind, Except.bind]
  | ok a => simp [bind, Except.bind]

/-- Two steps fail if the first one does, or the second one from where the first one ended. -/
theorem bind_eq_error_iff {α β : Type} {first : Except ExpansionError α}
    {second : α → Except ExpansionError β} :
    (first >>= second) = .error e ↔ first = .error e ∨ ∃ a, first = .ok a ∧
      second a = .error e := by
  cases first with
  | error e => simp [bind, Except.bind]
  | ok a => simp [bind, Except.bind]

/-- The expansion of one piece, which also looks at the text that follows it. -/
def expandPiece (x : Expander) (ctx : Context) (deeper : Deeper) (following : List Char) :
    Piece → Except ExpansionError (List Char)
  | .call call =>
    match x.functions.lookup (String.ofList call.name) with
    | some function => applyFunction deeper function call
    | none => do
      let name ← x.expandName ctx deeper call.name
      let tail ← x.expandPieces ctx deeper call.tail
      pure (name ++ tail)
  | .leaf .ident name =>
    if (x.functions.lookup (String.ofList name)).isSome && (Text.trimStart following).head? ==
      some '(' then
      .error (.unterminated (String.ofList name))
    else x.expandName ctx deeper name
  | .leaf _ text => .ok text

/-- A text is expanded by its first piece and then by what follows. -/
theorem expandPieces_cons (c : Char) (rest : List Char) :
    x.expandPieces ctx deeper (c :: rest) = (do
      let head ← x.expandPiece ctx deeper (behindFirst c rest) (firstPiece c rest)
      let others ← x.expandPieces ctx deeper (behindFirst c rest)
      pure (head ++ others)) := by
  rw [expandPieces, behindFirst]
  split
  · next call hcall =>
    simp only [hcall]
    rfl
  · next name hident => simp only [hident, expandPiece]
  · next kind text hkind hleaf => simp only [hleaf, expandPiece]

/-! ## What is left alone -/

/-- A name that is not registered is neither a variable nor a function. -/
theorem lookup_of_binds {key : String} (h : x.binds key = false) :
    x.vars.lookup key = none ∧ x.functions.lookup key = none := by
  simpa [binds] using h

/-- A piece without registered names is copied, provided that texts without registered names are. -/
theorem expandPiece_eq_text (following : List Char)
    (h : ∀ name ∈ piece.names, x.binds (String.ofList name) = false)
    (htail : ∀ call, piece = .call call →
      (∀ name ∈ names call.tail, x.binds (String.ofList name) = false) →
      x.expandPieces ctx deeper call.tail = .ok call.tail) :
    x.expandPiece ctx deeper following piece = .ok piece.text := by
  cases piece with
  | call call =>
    obtain ⟨hvars, hfunctions⟩ := lookup_of_binds (h call.name List.mem_cons_self)
    have hbehind := htail call rfl fun name hname => h name (List.mem_cons_of_mem _ hname)
    simp only [expandPiece, hfunctions, expandName, hvars, hbehind]
    rfl
  | leaf kind text =>
    by_cases hkind : kind = .ident
    · subst hkind
      obtain ⟨hvars, hfunctions⟩ := lookup_of_binds (h text List.mem_cons_self)
      simp [expandPiece, hfunctions, expandName, hvars, Piece.text]
    · simp [expandPiece, Piece.text]

/-- A text without registered names is its own expansion. -/
theorem expandPieces_eq_self (h : ∀ name ∈ names cs, x.binds (String.ofList name) = false) :
    x.expandPieces ctx deeper cs = .ok cs := by
  induction cs using piece_induction with
  | nil => rw [expandPieces]
  | cons c rest within behind =>
    rw [names_cons, List.forall_mem_append] at h
    rw [expandPieces_cons, expandPiece_eq_text _ h.1 within, behind h.2]
    exact congrArg Except.ok (text_append_behindFirst c rest)

/-- What comes of a piece, level by level: names and calls that are registered are replaced; a
call that is not keeps its shape, and what follows its name is made up of pieces again;
everything else is copied. -/
inductive Yields (x : Expander) (ctx : Context) (deeper : Deeper) : Piece → List Char → Prop
  | copied {kind : LeafKind} {text : List Char} (hkind : kind ≠ .ident) :
      Yields x ctx deeper (.leaf kind text) text
  | unknown {name : List Char} (hname : x.vars.lookup (String.ofList name) = none) :
      Yields x ctx deeper (.leaf .ident name) name
  | replaced {name text : List Char} {v : Variable}
      (hname : x.vars.lookup (String.ofList name) = some v)
      (htext : deeper (String.ofList name) (v.replacement ctx).toList = .ok text) :
      Yields x ctx deeper (.leaf .ident name) text
  | applied {call : Call} {text : List Char} {function : Function}
      (hname : x.functions.lookup (String.ofList call.name) = some function)
      (htext : applyFunction deeper function call = .ok text) :
        Yields x ctx deeper (.call call) text
  | opened {call : Call} {head : List Char} {texts : List (List Char)}
      (hname : x.functions.lookup (String.ofList call.name) = none)
      (hhead : Yields x ctx deeper (.leaf .ident call.name) head)
      (htexts : List.Forall₂ (Yields x ctx deeper) (scan call.tail) texts) :
      Yields x ctx deeper (.call call) (head ++ texts.flatten)

/-- A name that expands is replaced or copied. -/
theorem yields_of_expandName (h : x.expandName ctx deeper name = .ok text) :
    x.Yields ctx deeper (.leaf .ident name) text := by
  rw [expandName] at h
  split at h
  · next v hv => exact .replaced hv h
  · next hnone =>
    obtain rfl := Except.ok.inj h
    exact .unknown hnone

/-- A piece that expands gives what comes of it, provided that what follows the
name of a call does. -/
theorem yields_of_expandPiece {following : List Char}
    (h : x.expandPiece ctx deeper following piece = .ok text)
    (htail : ∀ call out, piece = .call call → x.expandPieces ctx deeper call.tail = .ok out →
      ∃ texts, out = texts.flatten ∧ List.Forall₂ (x.Yields ctx deeper) (scan call.tail) texts) :
    x.Yields ctx deeper piece text := by
  cases piece with
  | call call =>
    simp only [expandPiece] at h
    split at h
    · next function hfunction => exact .applied hfunction h
    · next hnone =>
      obtain ⟨head, hhead, h⟩ := bind_eq_ok_iff.mp h
      obtain ⟨tail, hbehind, h⟩ := bind_eq_ok_iff.mp h
      obtain rfl := Except.ok.inj h
      obtain ⟨texts, rfl, htexts⟩ := htail call tail rfl hbehind
      exact .opened hnone (yields_of_expandName hhead) htexts
  | leaf kind own =>
    by_cases hkind : kind = .ident
    · subst hkind
      simp only [expandPiece] at h
      split at h
      · cases h
      · exact yields_of_expandName h
    · simp only [expandPiece] at h
      obtain rfl := Except.ok.inj h
      exact .copied hkind

/-- The expansion of a text is made up of what comes of its pieces, in their order. -/
theorem exists_yields (h : x.expandPieces ctx deeper cs = .ok out) :
    ∃ texts, out = texts.flatten ∧ List.Forall₂ (x.Yields ctx deeper) (scan cs) texts := by
  induction cs using piece_induction generalizing out with
  | nil =>
    rw [expandPieces] at h
    obtain rfl := Except.ok.inj h
    refine ⟨[], rfl, ?_⟩
    rw [scan]
    exact .nil
  | cons c rest within behind =>
    rw [expandPieces_cons] at h
    obtain ⟨head, hhead, h⟩ := bind_eq_ok_iff.mp h
    obtain ⟨others, hothers, h⟩ := bind_eq_ok_iff.mp h
    obtain rfl := Except.ok.inj h
    obtain ⟨texts, rfl, htexts⟩ := behind hothers
    refine ⟨head :: texts, rfl, ?_⟩
    rw [scan_cons]
    exact .cons (yields_of_expandPiece hhead fun call _ hcall htail =>
      within call hcall htail) htexts

/-- Only registered names in code position are touched. A text whose names are not registered is its
own expansion, whatever is registered otherwise; and in the expansion of any text the pieces stand
as they were, but for those with a registered name. -/
theorem expand_touches_registered_only (x : Expander) (ctx : Context) (code : String) :
    ((∀ name ∈ names code.toList, x.binds (String.ofList name) = false) →
      x.expand ctx code = .ok code) ∧
    ∀ out, x.expand ctx code = .ok out → ∃ texts, out.toList = texts.flatten ∧
      List.Forall₂ (x.Yields ctx (x.expandAt ctx maxDepth)) (scan code.toList) texts := by
  constructor
  · intro hnames
    rw [expand, expandAt, expandPieces_eq_self hnames]
    exact congrArg Except.ok String.ofList_toList
  · intro out hout
    rw [expand, expandAt] at hout
    cases htext : x.expandPieces ctx (x.expandAt ctx maxDepth) code.toList with
    | error e =>
      rw [htext] at hout
      cases hout
    | ok text =>
      rw [htext] at hout
      obtain rfl := Except.ok.inj hout
      rw [String.toList_ofList]
      exact exists_yields htext

/-- A field, a text and a function are registered. -/
def counter : Expander :=
  ((Expander.addField {} "count").addVariable "limit" "10").addFunction "log" ⟨1, List.head?⟩

/-- Code with a call in a call and a literal that is not closed. All registered names stand in
literals, comments, lifetimes, numbers and member accesses. -/
def notice : String :=
  "emit(\"count\", [r#\"log(\"#, x.count], g(&'limit 'l', /* limit */ 1count)) // log(\n \"open"

/-- The code is left as it is. -/
theorem counter_leaves_notice_alone :
    (∀ name ∈ names notice.toList, counter.binds (String.ofList name) = false) ∧
      counter.expand {} notice = .ok notice := by
  have hnames : ∀ name ∈ names notice.toList, counter.binds (String.ofList name) = false := by
    decide +kernel
  exact ⟨hnames, (expand_touches_registered_only counter {} notice).1 hnames⟩

end Expander

end Statechart.Snippet
