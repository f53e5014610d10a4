import Statechart.Config
import Statechart.Proofs.Scanning

/-!
# Expansion of variables

The variables of a configuration are replaced by fields of the machine, and a replacement is
expanded in turn. The text of a field has one identifier of its own, the machine itself; what
follows it are member accesses, which are left alone. So a replacement is never replaced again,
unless a variable has the name that stands for the machine, and then it is replaced for ever.
-/

namespace Statechart.Snippet

variable {c : Char} {cs rest name : List Char} {n : Nat}

/-! ## Identifiers -/

/-- The text is one identifier. -/
def IsIdent (cs : List Char) : Prop := identLength cs = some cs.length

/-- An identifier starts with a character of the one class and goes on with those of the other. -/
theorem isIdent_cons_iff : IsIdent (c :: rest) ↔ Text.isNameStart c ∧
    rest.all Text.isNameContinue := by
  have hlength : (rest.takeWhile Text.isNameContinue).length = rest.length ↔
      rest.all Text.isNameContinue := by
    rw [List.all_eq_true, ← List.takeWhile_eq_self_iff]
    exact ⟨(List.takeWhile_prefix _).eq_of_length, congrArg List.length⟩
  simp only [IsIdent, identLength, Option.ite_none_right_eq_some, Option.some.injEq,
    List.length_cons, ← hlength]
  rw [Nat.add_comm, Nat.add_right_cancel_iff]

/-- Any character of an identifier may continue one. -/
theorem IsIdent.isNameContinue (h : IsIdent cs) (hc : c ∈ cs) : Text.isNameContinue c := by
  cases cs with
  | nil => cases hc
  | cons first rest =>
    obtain ⟨hfirst, hrest⟩ := isIdent_cons_iff.mp h
    rcases List.mem_cons.mp hc with rfl | hc
    · exact Text.isNameContinue_of_isNameStart hfirst
    · exact List.all_eq_true.mp hrest c hc

/-- An identifier at the start of a text is one by itself. -/
theorem isIdent_take (h : identLength cs = some n) : IsIdent (cs.take n) := by
  cases cs with
  | nil => simp [identLength] at h
  | cons c rest =>
    simp only [identLength, Option.ite_none_right_eq_some, Option.some.injEq] at h
    obtain ⟨hc, rfl⟩ := h
    rw [Nat.add_comm, List.take_succ_cons, ← List.prefix_iff_eq_take.mp (List.takeWhile_prefix _)]
    exact isIdent_cons_iff.mpr ⟨hc, List.all_takeWhile⟩

/-- A leaf that is looked for before calls and identifiers is the first piece. -/
theorem firstPiece_of_firstLeaf {kind : LeafKind}
    (h : firstLeaf leafExtents (c :: rest) = some (kind, n)) :
    firstPiece c rest = .leaf kind ((c :: rest).take n) := by
  fun_cases firstPiece c rest with
  | case1 cs kind' n' hleaf =>
    cases hleaf.symm.trans h
    rfl
  | case2 cs hleaf => cases hleaf.symm.trans h
  | case3 cs hleaf => cases hleaf.symm.trans h
  | case4 cs hleaf => cases hleaf.symm.trans h

/-- What is read as an identifier is one. -/
theorem isIdent_of_firstPiece (h : firstPiece c rest = .leaf .ident name) : IsIdent name := by
  revert h
  fun_cases firstPiece c rest with
  | case1 cs kind n hleaf =>
    intro h
    obtain ⟨rfl, -⟩ := Piece.leaf.inj h
    obtain ⟨leaf, hmem, hkind, -⟩ := exists_of_firstLeaf hleaf
    have hother : ∀ leaf ∈ leafExtents, leaf.1 ≠ .ident := by simp [leafExtents]
    exact absurd hkind (hother leaf hmem)
  | case2 =>
    intro h
    cases h
  | case3 cs hleaf hcall n hn =>
    intro h
    obtain ⟨-, rfl⟩ := Piece.leaf.inj h
    exact isIdent_take hn
  | case4 =>
    intro h
    cases h

/-- The name of a call is an identifier. -/
theorem isIdent_of_callAt {call : Call} (h : callAt cs = some call) : IsIdent call.name := by
  simp only [callAt, Option.bind_eq_some_iff] at h
  obtain ⟨n, hn, h⟩ := h
  split at h
  · obtain ⟨args, -, rfl⟩ := Option.map_eq_some_iff.mp h
    exact isIdent_take hn
  · simp at h

/-- No identifier starts with white space. -/
theorem isWhite_eq_false_of_isNameStart (h : Text.isNameStart c) : Text.isWhite c = false := by
  have hall : ∀ n ∈ Text.whiteRanges.codes, Text.isNameStart (Char.ofNat n) = false := by
    decide +kernel
  refine Bool.eq_false_iff.mpr fun hwhite => ?_
  have hc :=
    Text.of_mem_codes (Text.isNameStart · = false) hall (Text.Ranges.mem_codes_of_covers hwhite)
  rw [h] at hc
  cases hc

/-! ## The text of a field -/

/-- The text of a field starts with the machine as an identifier. -/
theorem firstPiece_self (rest : List Char) :
    firstPiece 's' ('e' :: 'l' :: 'f' :: '.' :: rest) = .leaf .ident ['s', 'e', 'l', 'f'] := rfl

/-- The variables are a member of the machine. -/
theorem firstPiece_vars (rest : List Char) :
    firstPiece '.' ('v' :: 'a' :: 'r' :: 's' :: '.' :: rest) =
      .leaf .member ['.', 'v', 'a', 'r', 's'] := rfl

/-- Whatever identifier it is, the name of a field is read as a member. -/
theorem firstPiece_field (h : IsIdent name) :
    firstPiece '.' name = .leaf .member ('.' :: name) := by
  cases name with
  | nil => simp [IsIdent, identLength] at h
  | cons c rest =>
    have hc := (isIdent_cons_iff.mp h).1
    have hdot : c ≠ '.' := by
      rintro rfl
      exact absurd hc (by decide)
    have hident : identLength (c :: rest) = some (c :: rest).length := h
    have hmember : member ('.' :: c :: rest) = some (1 + (c :: rest).length) := by
      simp [member, spacedIdent, isWhite_eq_false_of_isNameStart hc, hident]
    have hnumber : Char.isDigit '.' = false := by decide
    have hleaf : firstLeaf leafExtents ('.' :: c :: rest) =
        some (.member, 1 + (c :: rest).length) := by
      simp [firstLeaf, leafExtents, lineComment, blockComment, rawString, rawFromR, stringLiteral,
        stringFromQuote, charLiteral, charFromQuote, lifetime, number, hnumber, range,
        hdot, hmember]
    rw [firstPiece_of_firstLeaf hleaf, Nat.add_comm, List.take_succ_cons, List.take_length]

namespace Expander

variable {x : Expander} {ctx : Context} {deeper : Deeper} {kind : LeafKind} {text : List Char}
  {call : Call}

/-! ## Pieces one by one -/

/-- A piece that is no name is copied. -/
theorem expandPieces_leaf (h : firstPiece c rest = .leaf kind text) (hkind : kind ≠ .ident) :
    x.expandPieces ctx deeper (c :: rest) =
      (x.expandPieces ctx deeper (rest.drop (text.length - 1))).map (text ++ ·) := by
  rw [expandPieces]
  split
  · next hcall => rw [hcall] at h; cases h
  · next name hident =>
    rw [hident] at h
    exact absurd (Piece.leaf.inj h).1.symm hkind
  · next other hleaf =>
    rw [hleaf] at h
    obtain ⟨rfl, rfl⟩ := Piece.leaf.inj h
    rw [hleaf]
    rfl

/-- An identifier that no function has is looked up. -/
theorem expandPieces_ident (h : firstPiece c rest = .leaf .ident name)
    (hname : x.functions.lookup (String.ofList name) = none) :
    x.expandPieces ctx deeper (c :: rest) = (do
      let head ← x.expandName ctx deeper name
      let others ← x.expandPieces ctx deeper (rest.drop (name.length - 1))
      pure (head ++ others)) := by
  rw [expandPieces]
  split
  · next hcall => rw [hcall] at h; cases h
  · next other hident =>
    rw [hident] at h
    obtain ⟨-, rfl⟩ := Piece.leaf.inj h
    simp [hident, hname, Piece.text]
  · next kind text hother hleaf =>
    rw [hleaf] at h
    exact absurd (Piece.leaf.inj h).1 hother

/-- A text fails where its first identifier fails. -/
theorem expandPieces_ident_error {e : ExpansionError} (h : firstPiece c rest = .leaf .ident name)
    (hname : x.functions.lookup (String.ofList name) = none)
    (he : x.expandName ctx deeper name = .error e) :
    x.expandPieces ctx deeper (c :: rest) = .error e := by
  rw [expandPieces_ident h hname, he]
  rfl

/-- A call of an unknown function keeps its shape. -/
theorem expandPieces_call (h : firstPiece c rest = .call call)
    (hname : x.functions.lookup (String.ofList call.name) = none) :
    x.expandPieces ctx deeper (c :: rest) = (do
      let name ← x.expandName ctx deeper call.name
      let tail ← x.expandPieces ctx deeper call.tail
      let others ← x.expandPieces ctx deeper (rest.drop (call.text.length - 1))
      pure (name ++ tail ++ others)) := by
  rw [expandPieces]
  split
  · next other hcall =>
    rw [hcall] at h
    obtain rfl := Piece.call.inj h
    simp only [hname, hcall, Piece.text, bind_assoc, pure_bind]
  · next hident => rw [hident] at h; cases h
  · next hleaf => rw [hleaf] at h; cases h

/-- Without functions, a text can be expanded if its identifiers can. -/
theorem exists_expandPieces (hfunctions : x.functions = [])
    (hname : ∀ name, IsIdent name → ∃ text, x.expandName ctx deeper name = .ok text)
    (cs : List Char) :
    ∃ text, x.expandPieces ctx deeper cs = .ok text := by
  induction hlength : cs.length using Nat.strongRecOn generalizing cs with
  | ind length ih =>
    cases cs with
    | nil => exact ⟨[], by rw [expandPieces]⟩
    | cons c rest =>
      subst hlength
      have hfollowing (k : Nat) : ∃ text, x.expandPieces ctx deeper (rest.drop k) = .ok text :=
        ih _ (by simp only [List.length_drop, List.length_cons]; omega) _ rfl
      cases hfirst : firstPiece c rest with
      | leaf kind text =>
        obtain ⟨others, hothers⟩ := hfollowing (text.length - 1)
        by_cases hkind : kind = .ident
        · subst hkind
          obtain ⟨head, hhead⟩ := hname text (isIdent_of_firstPiece hfirst)
          rw [expandPieces_ident hfirst (by simp [hfunctions]), hhead, hothers]
          exact ⟨_, rfl⟩
        · rw [expandPieces_leaf hfirst hkind, hothers]
          exact ⟨_, rfl⟩
      | call call =>
        obtain ⟨head, hhead⟩ := hname call.name (isIdent_of_callAt (callAt_of_firstPiece hfirst))
        obtain ⟨tail, htail⟩ := ih _ (firstPiece_call_tail_length_lt hfirst) call.tail rfl
        obtain ⟨others, hothers⟩ := hfollowing (call.text.length - 1)
        rw [expandPieces_call hfirst (by simp [hfunctions]), hhead, htail, hothers]
        exact ⟨_, rfl⟩

/-! ## Variables of the machine -/

/-- The text that stands for a field. -/
theorem toList_replacement_field (name : List Char) :
    ((Variable.field (String.ofList name)).replacement {}).toList =
      "self.vars.".toList ++ name := by
  rw [Variable.replacement, String.toList_append]
  exact congrArg _ String.toList_ofList

/-- The text of a field is left alone, unless the machine itself is replaced. -/
theorem expandPieces_field (hfunctions : x.functions = []) (hself : x.vars.lookup "self" = none)
    (h : IsIdent name) :
    x.expandPieces ctx deeper ("self.vars.".toList ++ name) =
      .ok ("self.vars.".toList ++ name) := by
  have hname : x.expandPieces ctx deeper ('.' :: name) = .ok ('.' :: name) := by
    rw [expandPieces_leaf (firstPiece_field h) (by decide), List.length_cons, Nat.add_sub_cancel,
      List.drop_length, expandPieces]
    simp [Except.map]
  have hvars : x.expandPieces ctx deeper (".vars.".toList ++ name) =
      .ok (".vars.".toList ++ name) := by
    refine (expandPieces_leaf (firstPiece_vars name) (by decide)).trans ?_
    exact congrArg (Except.map (".vars".toList ++ ·)) hname
  have hmachine : x.expandName ctx deeper "self".toList = .ok "self".toList := by
    rw [expandName, String.ofList_toList, hself]
  refine (expandPieces_ident (firstPiece_self _) (by simp [hfunctions])).trans ?_
  change (do
    let head ← x.expandName ctx deeper "self".toList
    let others ← x.expandPieces ctx deeper (".vars.".toList ++ name)
    pure (head ++ others)) = _
  rw [hmachine, hvars]
  rfl

/-- Two levels are enough for variables of the machine if none of them has the name of the
machine. -/
theorem exists_expandAt (hfunctions : x.functions = []) (hself : x.vars.lookup "self" = none)
    (hfields : ∀ key v, x.vars.lookup key = some v → v = .field key) (levels : Nat)
    (blamed : String) (cs : List Char) :
    ∃ text, x.expandAt {} (levels + 2) blamed cs = .ok text := by
  refine exists_expandPieces hfunctions (fun name hident => ?_) cs
  rw [expandName]
  split
  · next v hv =>
    obtain rfl := hfields _ _ hv
    refine ⟨"self.vars.".toList ++ name, ?_⟩
    rw [toList_replacement_field]
    exact expandPieces_field hfunctions hself hident
  · exact ⟨name, rfl⟩

/-- A variable with the name of the machine is replaced for ever. -/
theorem expandAt_self (hfunctions : x.functions = [])
    (hself : x.vars.lookup "self" = some (.field "self")) (levels : Nat) (blamed : String) :
    ∃ e, x.expandAt {} levels blamed ("self.vars.".toList ++ "self".toList) = .error e := by
  induction levels generalizing blamed with
  | zero => exact ⟨.recursionLimit blamed, rfl⟩
  | succ levels ih =>
    obtain ⟨e, he⟩ := ih "self"
    have hname : x.expandName {} (x.expandAt {} levels) ['s', 'e', 'l', 'f'] = .error e := by
      change x.expandName {} (x.expandAt {} levels) "self".toList = .error e
      rw [expandName, String.ofList_toList, hself]
      simp only [Variable.replacement, String.toList_append]
      exact he
    exact ⟨e, expandPieces_ident_error (firstPiece_self _) (by simp [hfunctions]) hname⟩

/-- A name that is bound is found, and the others are as before. -/
theorem lookup_bindName {α : Type} (name key : String) (value : α) (entries : List (String × α)) :
    (bindName name value entries).lookup key = if key = name then some value
      else entries.lookup key := by
  by_cases hkey : key = name
  · simp [bindName, hkey]
  · rw [if_neg hkey, bindName, List.lookup_cons, beq_false_of_ne hkey]
    induction entries with
    | nil => rfl
    | cons entry entries ih =>
      obtain ⟨other, v⟩ := entry
      by_cases hother : other = name
      · simpa [hother, List.lookup_cons, beq_false_of_ne hkey] using ih
      · cases hequal : key == other <;> simp [hother, List.lookup_cons, hequal, ih]

end Expander

end Statechart.Snippet

namespace Statechart.Config

open Snippet

variable {vars : List AutoVar}

/-- Fields are no functions. -/
theorem functions_foldl_addField (x : Expander) (vars : List AutoVar) :
    (vars.foldl (fun x var => x.addField var.name) x).functions = x.functions := by
  induction vars generalizing x with
  | nil => rfl
  | cons var vars ih => exact ih (x.addField var.name)

/-- The names that are replaced are those of the variables, each by the field of its name. -/
theorem lookup_foldl_addField (x : Expander) (vars : List AutoVar) (key : String) :
    (vars.foldl (fun x var => x.addField var.name) x).vars.lookup key =
      if key ∈ vars.map AutoVar.name then some (.field key) else x.vars.lookup key := by
  induction vars generalizing x with
  | nil => simp
  | cons var vars ih =>
    rw [List.foldl_cons, ih, Expander.addField, Expander.lookup_bindName]
    by_cases hkey : key = var.name
    · simp [hkey]
    · simp [hkey]

/-- The expander for variables fails on some code exactly if one of them has the
name of the machine. -/
theorem expanderFor_total_iff : (∀ code, ∃ text, (expanderFor vars).expand {} code = .ok text) ↔
    "self" ∉ vars.map AutoVar.name := by
  have hfunctions : (expanderFor vars).functions = [] := functions_foldl_addField {} vars
  have hlookup (key : String) : (expanderFor vars).vars.lookup key =
      if key ∈ vars.map AutoVar.name then some (.field key) else none :=
        lookup_foldl_addField {} vars key
  constructor
  · intro htotal hself
    have hbound : (expanderFor vars).vars.lookup "self" = some (.field "self") :=
      (hlookup "self").trans (if_pos hself)
    obtain ⟨text, htext⟩ := htotal ("self.vars." ++ "self")
    obtain ⟨e, he⟩ := Expander.expandAt_self hfunctions hbound (Expander.maxDepth + 1)
      (Text.trim ("self.vars." ++ "self"))
    rw [Expander.expand, String.toList_append, he] at htext
    cases htext
  · intro hself code
    have hfree : (expanderFor vars).vars.lookup "self" = none :=
      (hlookup "self").trans (if_neg hself)
    have hfields (key : String) (v : Variable) (hv : (expanderFor vars).vars.lookup key = some v) :
        v = .field key := by
      rw [hlookup, Option.ite_none_right_eq_some] at hv
      exact (Option.some.inj hv.2).symm
    obtain ⟨text, htext⟩ :=
      Expander.exists_expandAt hfunctions hfree hfields 31 (Text.trim code) code.toList
    exact ⟨String.ofList text, congrArg (Except.map String.ofList) htext⟩

end Statechart.Config
