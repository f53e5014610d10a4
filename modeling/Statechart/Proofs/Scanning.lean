import Statechart.Proofs.Extents

/-!
# Scanning reads the grammar

The pieces that a text is cut into are the nodes that the grammar gives for it, for every text: the
grammar reads each text to its end, in one way only. So no character is lost or written twice by the
cut, whatever the text is.
-/

namespace Statechart.Snippet

/-- The node of one argument. -/
def argNode (text : List Char) : Node := .node .arg text []

/-- The node of a call, with its name and its arguments inside. -/
def Call.node (call : Call) : Node :=
  .node .call call.text [.node (.leaf .ident) call.name [],
    .node .args call.argsText (call.args.map argNode)]

/-- The node of a piece. -/
def Piece.node : Piece → Node
  | leaf kind text => .node (.leaf kind) text []
  | call body => body.node

/-- A piece and its node have the same text. -/
@[simp] theorem Piece.text_node (piece : Piece) : piece.node.text = piece.text := by
  cases piece <;> rfl

/-- The arguments and the closing parenthesis of a call. -/
def Peg.openArgs : Peg := .inOrder [.rule .arg, .star (.seq (.lit [',']) (.rule .arg))] (.lit [')'])

variable {a b e : Peg} {s : List (List Char)} {cs rest : List Char} {args : List (List Char)}

/-! ## Calls -/

/-- An argument has one node. -/
theorem parses_arg (cs : List Char) :
    Parses (.rule .arg) s cs
      (some ⟨cs.take (argLength cs), [argNode (cs.take (argLength cs))], cs.drop (argLength cs),
        s⟩) := by
  obtain ⟨nodes, h⟩ := reads_arg (s := s) cs
  exact Parses.rule h

/-- Behind a comma the arguments go on as from the start. -/
theorem parses_comma {result : Option Reading} (h : Parses .openArgs s cs result) :
    Parses (.seq (.star (.seq (.lit [',']) (.rule .arg))) (.lit [')'])) s (',' :: cs)
      (result.map (Reading.append ⟨[','], [], cs, s⟩)) := by
  have hcomma : Parses (.lit [',']) s (',' :: cs) (some ⟨[','], [], cs, s⟩) := Parses.lit rfl
  cases h with
  | @seq _ _ _ _ first more hfirst hmore =>
    obtain rfl := Option.some.inj (hfirst.unique (parses_arg cs))
    rw [Option.map_map, Reading.append_comp_append]
    exact Parses.star_seq (Parses.seq hcomma (parses_arg cs)) hmore
  | seq_fail hfirst => cases hfirst.unique (parses_arg cs)

/-- A call has an argument, if only an empty one. -/
theorem argsFrom_ne_nil (h : argsFrom cs = some args) : args ≠ [] := by
  rintro rfl
  rw [argsFrom] at h
  split at h <;> simp at h

/-- A first argument is followed by a comma and the others. -/
theorem intercalate_comma {first : List Char} (h : args ≠ []) :
    [','].intercalate (first :: args) = first ++ ',' :: [','].intercalate args := by
  cases args with
  | nil => exact absurd rfl h
  | cons second others => simp

/-- The arguments up to the closing parenthesis are read as they are found. -/
theorem parses_openArgs (h : argsFrom cs = some args)
    (hrest : cs = [','].intercalate args ++ ')' :: rest) :
    Parses .openArgs s cs (some ⟨[','].intercalate args ++ [')'], args.map argNode, rest, s⟩) := by
  fun_induction argsFrom cs generalizing args rest with
  | case1 cs after hdrop =>
    cases h
    have hbehind : after = rest := by
      have htext := (List.take_append_drop (argLength cs) cs).trans hrest
      rw [hdrop, List.intercalate_singleton] at htext
      exact (List.cons.inj (List.append_cancel_left htext)).2
    have hclose :
        Parses (.seq (.star (.seq (.lit [',']) (.rule .arg))) (.lit [')'])) s
          (cs.drop (argLength cs))
        (some ⟨[')'], [], rest, s⟩) := by
      rw [hdrop, hbehind]
      exact Parses.seq (Parses.star_end (Parses.seq_fail (Parses.lit_fail (by simp))))
        (Parses.lit rfl)
    have hall : Parses .openArgs s cs _ := Parses.seq (parses_arg cs) hclose
    simpa [Reading.append] using hall
  | case2 cs after hdrop ih =>
    obtain ⟨more, hmore, rfl⟩ := Option.map_eq_some_iff.mp h
    rw [intercalate_comma (argsFrom_ne_nil hmore)] at hrest ⊢
    have hbehind : after = [','].intercalate more ++ ')' :: rest := by
      have htext := (List.take_append_drop (argLength cs) cs).trans hrest
      rw [hdrop, List.append_assoc] at htext
      exact (List.cons.inj (List.append_cancel_left htext)).2
    have hcomma := parses_comma (s := s) (ih hmore hbehind)
    rw [← hdrop] at hcomma
    have hall : Parses .openArgs s cs _ := Parses.seq (parses_arg cs) hcomma
    simpa [Reading.append] using hall
  | case3 => simp at h

/-- Where no arguments are found, none are read. -/
theorem openArgs_none (h : argsFrom cs = none) : Parses .openArgs s cs none := by
  fun_induction argsFrom cs with
  | case1 => simp at h
  | case2 cs after hdrop ih =>
    have hmore := parses_comma (ih (Option.map_eq_none_iff.mp h))
    rw [← hdrop] at hmore
    exact Parses.seq (parses_arg cs) hmore
  | case3 cs hclose hcomma =>
    have hend :
        Parses (.seq (.star (.seq (.lit [',']) (.rule .arg))) (.lit [')'])) s
          (cs.drop (argLength cs)) none :=
      Parses.seq (Parses.star_end (Parses.seq_fail (Parses.lit_fail hcomma)))
        (Parses.lit_fail hclose)
    exact Parses.seq (parses_arg cs) hend

/-- Arguments in parentheses are read as they are found. -/
theorem parses_args (h : argsFrom cs = some args)
    (hrest : cs = [','].intercalate args ++ ')' :: rest) :
    Parses (.rule .args) s ('(' :: cs) (some ⟨'(' :: ([','].intercalate args ++ [')']),
      [.node .args ('(' :: ([','].intercalate args ++ [')'])) (args.map argNode)], rest, s⟩) := by
  have hopen : Parses (.lit ['(']) s ('(' :: cs) (some ⟨['('], [], cs, s⟩) := Parses.lit rfl
  have hbody : Parses (Rule.body .args) s ('(' :: cs) _ :=
    Parses.seq hopen (parses_openArgs h hrest)
  exact Parses.rule hbody

/-- Without arguments in parentheses, none are read. -/
theorem args_none (h : ∀ inside, cs = '(' :: inside → argsFrom inside = none) :
    Parses (.rule .args) s cs none := by
  have hbody : Parses (Rule.body .args) s cs none := by
    by_cases hopen : ∃ inside, cs = '(' :: inside
    · obtain ⟨inside, rfl⟩ := hopen
      exact Parses.seq (Parses.lit rfl) (openArgs_none (h inside rfl))
    · exact Parses.seq_fail (Parses.lit_fail (by simpa using hopen))
  exact Parses.rule hbody

/-- White space has no nodes. -/
theorem parses_blanks (cs : List Char) :
    Parses .blanks s cs (some ⟨cs.takeWhile Text.isWhite, [], cs.dropWhile Text.isWhite, s⟩) := by
  induction cs with
  | nil => exact Parses.star_end (Parses.char_fail (by simp))
  | cons c rest ih =>
    by_cases hc : Text.isWhite c
    · have hmore : Parses .blanks s (c :: rest) _ := Parses.star (Parses.char hc) ih
      simpa [Reading.append, List.takeWhile_cons, List.dropWhile_cons, hc] using hmore
    · have hend : Parses .blanks s (c :: rest) _ :=
        Parses.star_end (Parses.char_fail (by simpa using hc))
      simpa [List.takeWhile_cons, List.dropWhile_cons, hc] using hend

/-- An identifier has one node. -/
theorem parses_ident {n : Nat} (h : identLength cs = some n) :
    Parses (.rule (.leaf .ident)) s cs
      (some ⟨cs.take n, [.node (.leaf .ident) (cs.take n) []], cs.drop n, s⟩) := by
  have hread : Reads (Rule.body (.leaf .ident)) s s cs (identLength cs) := reads_ident cs
  rw [h] at hread
  obtain ⟨nodes, hread⟩ := hread
  exact Parses.rule hread

/-- Where no identifier is found, none is read. -/
theorem ident_none (h : identLength cs = none) : Parses (.rule (.leaf .ident)) s cs none := by
  have hread := reads_ident (s := s) cs
  rw [h] at hread
  exact Parses.leaf_none hread

/-- A call is read as it is found. -/
theorem parses_call {call : Call} (h : callAt cs = some call) (hrest : cs = call.text ++ rest) :
    Parses (.rule .call) s cs (some ⟨call.text, [call.node], rest, s⟩) := by
  simp only [callAt, Option.bind_eq_some_iff] at h
  obtain ⟨n, hn, h⟩ := h
  split at h
  · rename_i inside hopen
    obtain ⟨args, hargs, rfl⟩ := Option.map_eq_some_iff.mp h
    have hgap : (cs.drop n).takeWhile Text.isWhite ++ '(' :: inside = cs.drop n := by
      rw [← hopen, List.takeWhile_append_dropWhile]
    have hinside : inside = [','].intercalate args ++ ')' :: rest := by
      have htext := (List.take_append_drop n cs).trans hrest
      simp only [Call.text, Call.tail, Call.argsText, List.append_assoc, List.cons_append] at htext
      have hbehind := hgap.trans (List.append_cancel_left htext)
      exact (List.cons.inj (List.append_cancel_left hbehind)).2
    have hblanks := parses_blanks (s := s) (cs.drop n)
    rw [hopen] at hblanks
    have hbody : Parses (Rule.body .call) s cs _ :=
      Parses.seq (parses_ident hn) (Parses.seq hblanks (parses_args hargs hinside))
    exact Parses.rule hbody
  · simp at h

/-- Where no call is found, none is read. -/
theorem call_none (h : callAt cs = none) : Parses (.rule .call) s cs none := by
  have hbody : Parses (Rule.body .call) s cs none := by
    cases hn : identLength cs with
    | none => exact Parses.seq_fail (ident_none hn)
    | some n =>
      have hargs : ∀ inside, (cs.drop n).dropWhile Text.isWhite = '(' :: inside →
          argsFrom inside = none := by
        intro inside hopen
        simpa [callAt, hn, hopen] using h
      exact Parses.seq (parses_ident hn) (Parses.seq (parses_blanks (cs.drop n)) (args_none hargs))
  exact Parses.rule hbody

/-! ## Pieces -/

/-- Where no leaf of another kind starts, a call, an identifier or a single character is read. -/
theorem parses_unleaved {reading : Reading} (hleaf : firstLeaf leafExtents cs = none)
    (h : Parses (.alt (.rule .call) (.alt (.rule (.leaf .ident)) (.rule (.leaf .other)))) s cs
      (some reading)) :
    Parses (.rule .piece) s cs (some reading) := by
  have hbody : Parses (Rule.body .piece) s cs (some reading) :=
    parses_no_leaf (List.Subset.refl leafExtents) hleaf h
  exact Parses.rule hbody

/-- A text that starts is not empty. -/
theorem take_ne_nil {c : Char} {n : Nat} (h : 0 < n) : (c :: rest).take n ≠ [] := by
  simp [List.take_eq_nil_iff, Nat.ne_of_gt h]

/-- The first piece of a text starts it, is not empty, and is what the grammar reads there. -/
theorem parses_firstPiece (c : Char) (rest : List Char) : ∃ after,
    c :: rest = (firstPiece c rest).text ++ after ∧ (firstPiece c rest).text ≠ [] ∧
      Parses (.rule .piece) s (c :: rest)
        (some ⟨(firstPiece c rest).text, [(firstPiece c rest).node], after, s⟩) := by
  fun_cases firstPiece c rest with
  | case1 cs kind n hleaf =>
    have hbody : Parses (Rule.body .piece) s (c :: rest) _ :=
      parses_firstLeaf (List.Subset.refl leafExtents) hleaf
    exact ⟨cs.drop n, (List.take_append_drop n cs).symm,
      take_ne_nil (firstLeaf_pos (List.Subset.refl leafExtents) hleaf), Parses.rule hbody⟩
  | case2 cs hleaf call hcall =>
    obtain ⟨after, hafter⟩ := callAt_text hcall
    have hname := List.ne_nil_of_length_pos (callAt_name_length_pos hcall)
    exact ⟨after, hafter, List.append_ne_nil_of_left_ne_nil hname _,
      parses_unleaved hleaf (Parses.alt (parses_call hcall hafter))⟩
  | case3 cs hleaf hcall n hident =>
    exact ⟨cs.drop n, (List.take_append_drop n cs).symm, take_ne_nil (identLength_bounds hident).1,
      parses_unleaved hleaf (Parses.alt_fail (call_none hcall) (Parses.alt (parses_ident hident)))⟩
  | case4 cs hleaf hcall hident =>
    have hchar : Parses (Rule.body (.leaf .other)) s (c :: rest) (some ⟨[c], [], rest, s⟩) :=
      Parses.char rfl
    exact ⟨rest, rfl, by simp [Piece.text],
      parses_unleaved hleaf (Parses.alt_fail (call_none hcall) (Parses.alt_fail (ident_none hident)
        (Parses.rule hchar)))⟩

/-- At the end there are no more pieces. -/
theorem piece_none : Parses (.rule .piece) s [] none := by
  have hbody : Parses (Rule.body .piece) s [] none :=
    parses_no_leaf (List.Subset.refl leafExtents) rfl (Parses.alt_fail (call_none rfl)
      (Parses.alt_fail (ident_none rfl) (Parses.leaf_none (Parses.char_fail (by simp)))))
  exact Parses.rule hbody

/-- What follows the first piece is what is left without it. -/
theorem drop_firstPiece {c : Char} {text after : List Char} (h : c :: rest = text ++ after)
    (hne : text ≠ []) :
    rest.drop (text.length - 1) = after := by
  cases text with
  | nil => exact absurd rfl hne
  | cons d text =>
    rw [(List.cons.inj h).2]
    simp

/-- The pieces of a text are read one after the other up to its end. -/
theorem parses_scan (cs : List Char) :
    Parses (.star (.rule .piece)) s cs (some ⟨cs, (scan cs).map Piece.node, [], s⟩) := by
  fun_induction scan cs with
  | case1 => exact Parses.star_end piece_none
  | case2 c rest piece ih =>
    obtain ⟨after, htext, hne, hpiece⟩ := parses_firstPiece (s := s) c rest
    have hafter : rest.drop (piece.text.length - 1) = after := drop_firstPiece htext hne
    rw [hafter] at ih ⊢
    have hall := Parses.star hpiece ih
    rw [Reading.append, ← htext] at hall
    exact hall

/-- Every piece of a text is the first piece of what is left there. -/
theorem exists_of_mem_scan {piece : Piece} (h : piece ∈ scan cs) :
    ∃ c rest, piece = firstPiece c rest := by
  fun_induction scan cs with
  | case1 => simp at h
  | case2 c rest first ih =>
    rcases List.mem_cons.mp h with rfl | h
    · exact ⟨c, rest, rfl⟩
    · exact ih h

/-- The pieces of a text make up the text. -/
theorem flatMap_text_scan (cs : List Char) : (scan cs).flatMap Piece.text = cs := by
  fun_induction scan cs with
  | case1 => rfl
  | case2 c rest piece ih =>
    obtain ⟨after, htext, hne, -⟩ := parses_firstPiece (s := []) c rest
    have hafter : rest.drop (piece.text.length - 1) = after := drop_firstPiece htext hne
    rw [List.flatMap_cons, ih, hafter, htext]

/-! ## The whole text -/

/-- The node is made up as a call: a name, white space, and arguments between parentheses with
commas between them. -/
def Node.SplitsAsCall (call : Node) : Prop :=
  ∃ name args gap, call.parts = [name, args] ∧ name.label = .leaf .ident ∧ args.label = .args ∧
    call.text = name.text ++ (gap ++ args.text) ∧ gap.all Text.isWhite ∧
    args.parts ≠ [] ∧ (∀ arg ∈ args.parts, arg.label = .arg) ∧
    args.text = '(' :: ([','].intercalate (args.parts.map Node.text) ++ [')'])

/-- A call that is found is made up as one. -/
theorem splitsAsCall_of_callAt {call : Call} (h : callAt cs = some call) :
    call.node.SplitsAsCall := by
  simp only [callAt, Option.bind_eq_some_iff] at h
  obtain ⟨n, -, h⟩ := h
  split at h
  · obtain ⟨args, hargs, rfl⟩ := Option.map_eq_some_iff.mp h
    refine ⟨_, _, _, rfl, rfl, rfl, rfl, List.all_takeWhile, ?_, ?_, ?_⟩
    · simpa [Node.parts] using argsFrom_ne_nil hargs
    · simp [Node.parts, argNode, Node.label]
    · simp [Node.parts, Node.text, Call.argsText, argNode, Function.comp_def]
  · simp at h

/-- Every text is read as code. -/
theorem parses_code (cs : List Char) : Parses (.rule .code) s cs
    (some ⟨cs, [.node .code cs ((scan cs).map Piece.node ++ [Node.eoi])], [], s⟩) := by
  have hbody : Parses (Rule.body .code) s cs _ := Parses.seq (parses_scan cs) Parses.eoi
  simpa [Reading.append, Reading.wrap, Rule.wrap] using Parses.rule hbody

/-- Every text is read as code to its end, in one way, and the nodes for it are those of the pieces
it is cut into and one for the end. The pieces are not empty and make up the text; calls are made up
of their parts. -/
theorem code_read_as_scanned (cs : List Char) :
    (∀ result, Parses (.rule .code) [] cs result ↔
      result = some ⟨cs, [.node .code cs ((scan cs).map Piece.node ++ [Node.eoi])], [], []⟩) ∧
    ((scan cs).map Piece.node).flatMap Node.text = cs ∧
    ∀ node ∈ (scan cs).map Piece.node, node.text ≠ [] ∧
    (node.label = .call → node.SplitsAsCall) := by
  refine ⟨fun result => ⟨fun h => h.unique (parses_code cs), ?_⟩, ?_, ?_⟩
  · rintro rfl
    exact parses_code cs
  · simpa [List.flatMap_map] using flatMap_text_scan cs
  · intro node hnode
    obtain ⟨piece, hpiece, rfl⟩ := List.mem_map.mp hnode
    obtain ⟨c, rest, rfl⟩ := exists_of_mem_scan hpiece
    obtain ⟨after, -, hne, -⟩ := parses_firstPiece (s := []) c rest
    refine ⟨by simpa using hne, fun hlabel => ?_⟩
    cases hfirst : firstPiece c rest with
    | leaf kind text =>
      rw [hfirst] at hlabel
      cases hlabel
    | call call => exact splitsAsCall_of_callAt (callAt_of_firstPiece hfirst)

/-- A call with a comment in it that holds a comma and a quote. -/
theorem snippet_call_splits :
    (Call.node ⟨"log".toList, [' '], ["a /*, \"*/".toList, " b".toList]⟩).SplitsAsCall := by
  have h := code_read_as_scanned "log (a /*, \"*/, b);".toList
  exact (h.2.2 _
    (List.mem_map_of_mem (a := .call ⟨"log".toList, [' '], ["a /*, \"*/".toList, " b".toList]⟩)
    (by decide +kernel))).2 rfl

end Statechart.Snippet
