import Mathlib.Data.List.Chain
import Statechart.Proofs.CodeNames

/-!
# Chains of references

A variable stands for a text, and the names of this text are looked up in turn. Each look-up costs
one level, going into the arguments of a call costs none. So an expansion fails exactly if some
chain of variables, each named by the text of the one before it, is longer than there are levels;
the error names the variable that is one too many. Nothing else can fail if no functions are
registered.
-/

namespace Statechart.Snippet.Expander

variable {x : Expander} {ctx : Context} {deeper : Deeper} {cs name out text : List Char}
  {piece : Piece} {e : ExpansionError}

/-! ## Expansion without functions -/

/-- Without functions, an identifier is looked up wherever it stands. -/
theorem expandPiece_ident (hfunctions : x.functions = []) (following name : List Char) :
    x.expandPiece ctx deeper following (.leaf .ident name) = x.expandName ctx deeper name := by
  simp [expandPiece, hfunctions]

/-- Without functions, every call keeps its shape. -/
theorem expandPiece_call (hfunctions : x.functions = []) (following : List Char) (call : Call) :
    x.expandPiece ctx deeper following (.call call) = (do
      let name ← x.expandName ctx deeper call.name
      let tail ← x.expandPieces ctx deeper call.tail
      pure (name ++ tail)) := by
  simp [expandPiece, hfunctions]

/-- If a piece fails, one of its names does, provided this holds for what follows
the name of a call. -/
theorem exists_mem_of_expandPiece_error (hfunctions : x.functions = []) {following : List Char}
    (h : x.expandPiece ctx deeper following piece = .error e)
    (htail : ∀ call, piece = .call call → x.expandPieces ctx deeper call.tail = .error e →
      ∃ name ∈ names call.tail, x.expandName ctx deeper name = .error e) :
    ∃ name ∈ piece.names, x.expandName ctx deeper name = .error e := by
  cases piece with
  | call call =>
    rw [expandPiece_call hfunctions] at h
    rcases bind_eq_error_iff.mp h with hname | ⟨head, -, h⟩
    · exact ⟨call.name, List.mem_cons_self, hname⟩
    · rcases bind_eq_error_iff.mp h with hbehind | ⟨tail, -, h⟩
      · obtain ⟨name, hname, he⟩ := htail call rfl hbehind
        exact ⟨name, List.mem_cons_of_mem _ hname, he⟩
      · cases h
  | leaf kind own =>
    by_cases hkind : kind = .ident
    · subst hkind
      rw [expandPiece_ident hfunctions] at h
      exact ⟨own, List.mem_cons_self, h⟩
    · simp [expandPiece] at h

/-- If a text fails, one of its names does. -/
theorem exists_mem_of_expandPieces_error (hfunctions : x.functions = [])
    (h : x.expandPieces ctx deeper cs = .error e) :
    ∃ name ∈ names cs, x.expandName ctx deeper name = .error e := by
  induction cs using piece_induction with
  | nil =>
    rw [expandPieces] at h
    cases h
  | cons c rest within behind =>
    rw [names_cons]
    rw [expandPieces_cons] at h
    rcases bind_eq_error_iff.mp h with hfirst | ⟨head, -, h⟩
    · obtain ⟨name, hname, he⟩ := exists_mem_of_expandPiece_error hfunctions hfirst within
      exact ⟨name, List.mem_append_left _ hname, he⟩
    · rcases bind_eq_error_iff.mp h with hothers | ⟨others, -, h⟩
      · obtain ⟨name, hname, he⟩ := behind hothers
        exact ⟨name, List.mem_append_right _ hname, he⟩
      · cases h

/-- If a piece expands, all its names do, provided this holds for what follows the name of a
call. -/
theorem exists_of_mem_piece (hfunctions : x.functions = []) {following : List Char}
    (h : x.expandPiece ctx deeper following piece = .ok text) (hname : name ∈ piece.names)
    (htail : ∀ call tail, piece = .call call → x.expandPieces ctx deeper call.tail = .ok tail →
      name ∈ names call.tail → ∃ own, x.expandName ctx deeper name = .ok own) :
    ∃ own, x.expandName ctx deeper name = .ok own := by
  cases piece with
  | call call =>
    rw [expandPiece_call hfunctions] at h
    obtain ⟨head, hhead, h⟩ := bind_eq_ok_iff.mp h
    obtain ⟨tail, hbehind, -⟩ := bind_eq_ok_iff.mp h
    rcases List.mem_cons.mp hname with rfl | hname
    · exact ⟨head, hhead⟩
    · exact htail call tail rfl hbehind hname
  | leaf kind own =>
    by_cases hkind : kind = .ident
    · subst hkind
      obtain rfl := List.mem_singleton.mp hname
      rw [expandPiece_ident hfunctions] at h
      exact ⟨text, h⟩
    · simp [Piece.names] at hname

/-- If a text expands, all its names do. -/
theorem exists_of_mem_names (hfunctions : x.functions = [])
    (h : x.expandPieces ctx deeper cs = .ok out) (hname : name ∈ names cs) :
    ∃ own, x.expandName ctx deeper name = .ok own := by
  induction cs using piece_induction generalizing out with
  | nil => simp [names_nil] at hname
  | cons c rest within behind =>
    rw [expandPieces_cons] at h
    obtain ⟨head, hhead, h⟩ := bind_eq_ok_iff.mp h
    obtain ⟨others, hothers, -⟩ := bind_eq_ok_iff.mp h
    rw [names_cons, List.mem_append] at hname
    rcases hname with hname | hname
    · exact exists_of_mem_piece hfunctions hhead hname fun call _ hcall htail hmem =>
        within call hcall htail hmem
    · exact behind hothers hname

/-! ## Levels and chains -/

/-- One name refers to another if it is a variable and the text that it stands for has the other one
in code position. -/
def Refers (x : Expander) (ctx : Context) (v w : String) : Prop :=
  ∃ var ∈ x.vars.lookup v, w.toList ∈ names (var.replacement ctx).toList

instance (x : Expander) (ctx : Context) (v w : String) : Decidable (x.Refers ctx v w) :=
  inferInstanceAs
    (Decidable (∃ var ∈ x.vars.lookup v, w.toList ∈ names (var.replacement ctx).toList))

/-- Variables each of which refers to the next one. -/
structure IsReferenceChain (x : Expander) (ctx : Context) (vs : List String) : Prop where
  registered : ∀ v ∈ vs, (x.vars.lookup v).isSome
  refers : vs.IsChain (x.Refers ctx)

/-- A chain of references whose first member is named by the text. -/
structure ChainFrom (x : Expander) (ctx : Context) (cs : List Char) (vs : List String) : Prop
    extends x.IsReferenceChain ctx vs where
  starts : ∀ v ∈ vs.head?, v.toList ∈ names cs

/-- The empty chain starts in every text. -/
theorem ChainFrom.nil : x.ChainFrom ctx cs [] := ⟨⟨by simp, .nil⟩, by simp⟩

/-- A chain from a text is a variable of the text and a chain from what the variable stands for. -/
theorem chainFrom_cons {v : String} {vs : List String} : x.ChainFrom ctx cs (v :: vs) ↔
    v.toList ∈ names cs ∧ ∃ var, x.vars.lookup v = some var ∧
    x.ChainFrom ctx (var.replacement ctx).toList vs := by
  constructor
  · intro h
    obtain ⟨var, hvar⟩ := Option.isSome_iff_exists.mp (h.registered v List.mem_cons_self)
    obtain ⟨hnext, hrefers⟩ := List.isChain_cons.mp h.refers
    refine ⟨h.starts v rfl, var, hvar,
      ⟨fun w hw => h.registered w (List.mem_cons_of_mem v hw), hrefers⟩, ?_⟩
    intro w hw
    obtain ⟨var', hvar', hmem⟩ := hnext w hw
    obtain rfl := Option.some.inj (hvar.symm.trans hvar')
    exact hmem
  · rintro ⟨hv, var, hvar, h⟩
    refine ⟨⟨List.forall_mem_cons.mpr ⟨by simp [hvar], h.registered⟩, ?_⟩, by simpa using hv⟩
    exact List.isChain_cons.mpr ⟨fun w hw => ⟨var, hvar, h.starts w hw⟩, h.refers⟩

/-- Expansion of a text that stands for `blamed` fails only where a chain of variables
uses all levels up. -/
theorem exists_chain_of_error (hfunctions : x.functions = []) {levels : Nat} {blamed : String}
    (h : x.expandAt ctx levels blamed cs = .error e) :
    ∃ vs : List String, vs.length = levels ∧ x.ChainFrom ctx cs vs ∧
      e = .recursionLimit (vs.getLastD blamed) := by
  induction levels generalizing blamed cs with
  | zero => exact ⟨[], rfl, .nil, (Except.error.inj h).symm⟩
  | succ levels ih =>
    obtain ⟨name, hname, he⟩ := exists_mem_of_expandPieces_error hfunctions h
    rw [expandName] at he
    split at he
    · next v hv =>
      obtain ⟨vs, hlength, hchain, rfl⟩ := ih he
      refine ⟨String.ofList name :: vs, by simp [hlength], ?_, by rw [List.getLastD_cons]⟩
      exact chainFrom_cons.mpr ⟨by simpa using hname, v, hv, hchain⟩
    · cases he

/-- A chain of variables that starts in the text uses up as many levels as it has members. -/
theorem exists_error_of_chain (hfunctions : x.functions = []) {vs : List String}
    (hchain : x.ChainFrom ctx cs vs) (blamed : String) :
    ∃ e, x.expandAt ctx vs.length blamed cs = .error e := by
  induction vs generalizing cs blamed with
  | nil => exact ⟨.recursionLimit blamed, rfl⟩
  | cons v vs ih =>
    obtain ⟨hv, var, hvar, hbelow⟩ := chainFrom_cons.mp hchain
    obtain ⟨e, he⟩ := ih hbelow v
    -- the text cannot expand, since then its name `v` would
    cases hcs : x.expandAt ctx (v :: vs).length blamed cs with
    | error e' => exact ⟨e', rfl⟩
    | ok out =>
      obtain ⟨own, hown⟩ := exists_of_mem_names hfunctions hcs hv
      rw [expandName, String.ofList_toList, hvar] at hown
      cases he.symm.trans hown

/-- Expanding a snippet is expanding its text with all levels. -/
theorem expand_eq_error_iff {code : String} : x.expand ctx code = .error e ↔
    x.expandAt ctx (maxDepth + 1) (Text.trim code) code.toList = .error e := by
  rw [expand]
  cases x.expandAt ctx (maxDepth + 1) (Text.trim code) code.toList with
  | error e' => simp [Except.map]
  | ok text => simp [Except.map]

/-- Without functions, the expansion of code fails exactly if a chain of 33 variables starts in it,
each referring to the next one, and the error always is that the last variable of such a chain nests
too deeply. So all code can be expanded if no chain of references has more than 32 members. -/
theorem expand_fails_iff_chain (hfunctions : x.functions = []) (ctx : Context) :
    (∀ code, (∃ e, x.expand ctx code = .error e) ↔
      ∃ vs : List String, vs.length = 33 ∧ x.ChainFrom ctx code.toList vs) ∧
    (∀ code e, x.expand ctx code = .error e →
      ∃ vs last, vs.length = 33 ∧ x.ChainFrom ctx code.toList vs ∧ vs.getLast? = some last ∧
        e = .recursionLimit last) ∧
    ((∀ vs, x.IsReferenceChain ctx vs → vs.length ≤ 32) →
      ∀ code, ∃ text, x.expand ctx code = .ok text) := by
  have hchain (code : String) (e : ExpansionError) (he : x.expand ctx code = .error e) :
      ∃ vs last, vs.length = 33 ∧ x.ChainFrom ctx code.toList vs ∧ vs.getLast? = some last ∧
        e = .recursionLimit last := by
    obtain ⟨vs, hlength, hvs, rfl⟩ := exists_chain_of_error hfunctions (expand_eq_error_iff.mp he)
    have hne : vs ≠ [] := List.ne_nil_of_length_pos (by rw [hlength]; decide)
    obtain ⟨front, last, rfl⟩ := (List.eq_nil_or_concat' vs).resolve_left hne
    exact ⟨front ++ [last], last, hlength, hvs, by simp, by simp⟩
  refine ⟨fun code => ⟨?_, ?_⟩, hchain, ?_⟩
  · rintro ⟨e, he⟩
    obtain ⟨vs, last, hlength, hvs, -⟩ := hchain code e he
    exact ⟨vs, hlength, hvs⟩
  · rintro ⟨vs, hlength, hvs⟩
    obtain ⟨e, he⟩ := exists_error_of_chain hfunctions hvs (Text.trim code)
    rw [hlength] at he
    exact ⟨e, expand_eq_error_iff.mpr he⟩
  · intro hshort code
    cases hcode : x.expand ctx code with
    | ok text => exact ⟨text, rfl⟩
    | error e =>
      obtain ⟨vs, last, hlength, hvs, -⟩ := hchain code e hcode
      have hle := hshort vs hvs.toIsReferenceChain
      omega

/-- The name of a rung: the capitals first, then the small letters. -/
def rung (k : Nat) : String := String.singleton (Char.ofNat (if k < 26 then 65 + k else 71 + k))

/-- Variables that lead from each rung to the next one in the argument of a call,
up to the last one. -/
def ladder (count : Nat) : Expander :=
  { vars := (List.range count).map fun k => (rung k, .text ("go(" ++ rung (k + 1) ++ ")")) }

/-- A ladder with 33 rungs is one too high. -/
theorem ladder_one_too_high :
    (∃ e, (ladder 33).expand {} "A" = .error e) ∧ ((ladder 32).expand {} "A").isOk := by
  have hchain : (ladder 33).ChainFrom {} "A".toList ((List.range 33).map rung) :=
    ⟨⟨by decide +kernel, by decide +kernel⟩, by decide +kernel⟩
  exact ⟨((expand_fails_iff_chain rfl {}).1 "A").mpr ⟨_, by decide, hchain⟩, by decide +kernel⟩

end Statechart.Snippet.Expander
