import Statechart.Proofs.Arguments
import Statechart.Proofs.SteadyItems

/-!
# The last piece of a text

An inert character, such as a blank or an opening brace, is written at the end of a text. All pieces
of the text stay as they are, whatever the text is: quotes and comments that are left open, calls
without an end, operators. Only a line comment that reaches to the end takes the character in. In
all other cases the character is a piece of its own.
-/

namespace Statechart.Snippet

variable {x c : Char} {cs rest text : List Char} {n : Nat}

/-! ## Line comments, groups and arguments -/

/-- A line comment reaches no further than the text. -/
theorem lineComment_le (h : lineComment cs = some n) : n ≤ cs.length := by
  revert h
  fun_cases lineComment cs with
  | case1 rest =>
    intro h
    cases h
    have hle : lineLength rest ≤ rest.length := (List.takeWhile_prefix _).length_le
    simp only [List.length_cons]
    omega
  | case2 =>
    intro h
    cases h

/-- A line comment stays as it is, or it reaches to the end and goes on. -/
theorem lineComment_concat (hx : Inert x) (cs : List Char) : lineComment (cs ++ [x]) =
    if lineComment cs = some cs.length then some (cs.length + 1) else lineComment cs := by
  fun_cases lineComment cs with
  | case1 rest =>
    have hinside : (x != '\n' && x != '\r') = true := by
      simp [hx.ne '\n' (by decide), hx.ne '\r' (by decide)]
    have htake : lineLength (rest ++ [x]) = if lineLength rest = rest.length then rest.length + 1
        else lineLength rest :=
      length_takeWhile_concat (fun c => c != '\n' && c != '\r') hinside rest
    have hlength : ('/' :: '/' :: rest).length = 2 + rest.length := Nat.add_comm rest.length 2
    rw [List.cons_append, List.cons_append, lineComment, htake, hlength]
    by_cases hend : lineLength rest = rest.length
    · rw [if_pos hend, if_pos (by rw [hend])]
      rfl
    · rw [if_neg hend, if_neg fun heq => hend (Nat.add_left_cancel (Option.some.inj heq))]
  | case2 _ hcs =>
    rw [if_neg (by simp), lineComment]
    intro after hafter
    have hslashes : x ∉ ['/', '/'] := hx.not_mem (by decide)
    obtain ⟨before, hbefore⟩ := exists_append_of_concat hslashes hafter
    exact hcs before hbefore

/-- The comments and literals that need to be closed. -/
def closedItem (cs : List Char) : Option Nat :=
  (blockComment cs).or ((rawString cs).or ((stringLiteral cs).or (charLiteral cs)))

/-- Items that are closed are steady. -/
theorem steady_closedItem (hx : Inert x) : Steady x closedItem :=
  (steady_blockComment hx).or
    ((steady_rawString hx).or ((steady_stringLiteral hx).or (steady_charLiteral hx)))

/-- A sealed item is a line comment or, where there is none, one that is closed. -/
theorem sealedItem_eq (cs : List Char) : sealedItem cs = (lineComment cs).or (closedItem cs) := by
  simp only [sealedItem, closedItem, Option.orElse_eq_orElse, Option.orElse_eq_or]

/-- A sealed item reaches no further than the text. -/
theorem sealedItem_le (h : sealedItem cs = some n) : n ≤ cs.length := by
  rw [sealedItem_eq] at h
  rcases Option.or_eq_some_iff.mp h with h | ⟨-, h⟩
  · exact lineComment_le h
  · exact (steady_closedItem inert_blank).within cs n h

/-- A comment or literal stays as it is, unless it is a line comment that reaches to the end. -/
theorem sealedItem_concat (hx : Inert x) (cs : List Char) : sealedItem (cs ++ [x]) =
    if lineComment cs = some cs.length then some (cs.length + 1) else sealedItem cs := by
  rw [sealedItem_eq, sealedItem_eq, lineComment_concat hx, (steady_closedItem hx).concat]
  split <;> rfl

/-- Where a line comment starts, it is the sealed item. -/
theorem sealedItem_of_lineComment (h : lineComment cs = some n) : sealedItem cs = some n := by
  rw [sealedItem_eq, h, Option.some_or]

/-- The rest of a group reaches no further than the text. -/
theorem groupTail_le {closer : Char} (h : groupTail closer cs = some n) : n ≤ cs.length := by
  fun_induction groupTail closer cs generalizing n with
  | case1 => cases h
  | case2 closer c rest k hk ih =>
    refine le_of_map_add h fun j hj => ?_
    have hsealed := sealedItem_le hk
    have hrest := ih hj
    simp only [List.length_drop, List.length_cons] at hsealed hrest ⊢
    omega
  | case3 closer c rest hsealed inner hinner k hk ihgroup ihrest =>
    refine le_of_map_add h fun j hj => ?_
    have hgroup := ihgroup hk
    have hrest := ihrest hj
    simp only [List.length_drop, List.length_cons] at hgroup hrest ⊢
    omega
  | case4 closer c rest hsealed inner hinner hgroup ihgroup ihrest =>
    refine le_of_map_add h fun j hj => ?_
    have hrest := ihrest hj
    simp only [List.length_cons]
    omega
  | case5 =>
    cases h
    simp
  | case6 => cases h
  | case7 closer c rest hsealed hopen hclose ih =>
    refine le_of_map_add h fun j hj => ?_
    have hrest := ih hj
    simp only [List.length_cons]
    omega

/-- An inert character starts no comment or literal. -/
theorem sealedItem_singleton (hx : Inert x) : sealedItem [x] = none := by
  have hconcat := sealedItem_concat hx []
  rwa [if_neg (by simp [lineComment])] at hconcat

/-- Where no comment or literal starts, none starts with `x` at the end. -/
theorem sealedItem_concat_of_none (hx : Inert x) (h : sealedItem (c :: rest) = none) :
    sealedItem (c :: (rest ++ [x])) = none := by
  rw [← List.cons_append, sealedItem_concat hx, if_neg, h]
  intro hcomment
  rw [sealedItem_of_lineComment hcomment] at h
  cases h

/-- Behind a comment or literal the text goes on with `x` at its end, or nothing is
left of either text. -/
theorem drop_sealedItem_concat (hx : Inert x) (h : sealedItem (c :: rest) = some n) :
    (sealedItem (c :: (rest ++ [x])) = some n ∧
      (rest ++ [x]).drop (n - 1) = rest.drop (n - 1) ++ [x]) ∨
      (n = rest.length + 1 ∧ sealedItem (c :: (rest ++ [x])) = some (n + 1) ∧
        (rest ++ [x]).drop n = [] ∧
        rest.drop (n - 1) = []) := by
  rw [← List.cons_append, sealedItem_concat hx]
  split
  · next hcomment =>
    obtain rfl := Option.some.inj ((sealedItem_of_lineComment hcomment).symm.trans h)
    exact .inr ⟨rfl, rfl, List.drop_eq_nil_of_le (by simp), List.drop_eq_nil_of_le (by simp)⟩
  · have hle := sealedItem_le h
    rw [List.length_cons] at hle
    exact .inl ⟨h, List.drop_append_of_le_length (by omega)⟩

/-- An inert character closes no group. -/
theorem steady_groupTail (hx : Inert x) (closer : Char) : Steady x (groupTail closer) := by
  refine ⟨fun cs => ?_, fun cs n => groupTail_le⟩
  fun_induction groupTail closer cs with
  | case1 closer =>
    have hclose : isCloser x = false := by
      simp [isCloser, hx.ne ')' (by decide), hx.ne ']' (by decide), hx.ne '\x7d' (by decide)]
    rw [List.nil_append, groupTail, sealedItem_singleton hx]
    cases closerOf x <;> simp [groupTail, hclose]
  | case2 closer c rest n hn ih =>
    -- a line comment up to the end leaves nothing to close the group, with `x` or without
    rw [List.cons_append, groupTail]
    rcases drop_sealedItem_concat hx hn with ⟨hsealed, hdrop⟩ | ⟨-, hsealed, hdrop, hdrop'⟩
    · simp only [hsealed, hdrop, ih]
    · simp [hsealed, hdrop, hdrop', groupTail]
  | case3 closer c rest hnone inner hinner n hn ihgroup ihrest =>
    have hdrop : (rest ++ [x]).drop n = rest.drop n ++ [x] :=
      List.drop_append_of_le_length (groupTail_le hn)
    rw [List.cons_append, groupTail, sealedItem_concat_of_none hx hnone]
    simp only [hinner, ihgroup, hn, hdrop, ihrest]
  | case4 closer c rest hnone inner hinner hgroup ihgroup ihrest =>
    rw [List.cons_append, groupTail, sealedItem_concat_of_none hx hnone]
    simp only [hinner, ihgroup, hgroup, ihrest]
  | case5 closer c rest hnone hopen hclose heq =>
    rw [List.cons_append, groupTail, sealedItem_concat_of_none hx hnone]
    simp [hopen, hclose, heq]
  | case6 closer c rest hnone hopen hclose heq =>
    rw [List.cons_append, groupTail, sealedItem_concat_of_none hx hnone]
    simp [hopen, hclose, heq]
  | case7 closer c rest hnone hopen hclose ih =>
    rw [List.cons_append, groupTail, sealedItem_concat_of_none hx hnone]
    simp [hopen, hclose, ih]

/-- An argument reaches no further than the text. -/
theorem argLength_le (cs : List Char) : argLength cs ≤ cs.length := by
  fun_induction argLength cs with
  | case1 => simp
  | case2 c rest n hn ih =>
    have hsealed := sealedItem_le hn
    simp only [List.length_drop, List.length_cons] at ih hsealed ⊢
    omega
  | case3 c rest hsealed n hn ih =>
    obtain ⟨closer, -, hgroup⟩ := Option.bind_eq_some_iff.mp hn
    have hle := groupTail_le hgroup
    simp only [List.length_drop, List.length_cons] at ih ⊢
    omega
  | case4 => simp
  | case5 c rest hsealed hgroup hend ih =>
    rw [List.length_cons]
    omega

/-- A bracketed group stays as it is. -/
theorem group_concat (hx : Inert x) (c : Char) (rest : List Char) :
    ((closerOf c).bind fun closer => groupTail closer (rest ++ [x])) =
      (closerOf c).bind fun closer => groupTail closer rest := by
  simp only [(steady_groupTail hx _).concat]

/-- An argument stays as it is, or it reaches to the end and goes on. -/
theorem argLength_concat (hx : Inert x) (cs : List Char) :
    argLength (cs ++ [x]) = if argLength cs = cs.length then cs.length + 1 else argLength cs := by
  fun_induction argLength cs with
  | case1 =>
    have hgroup : ((closerOf x).bind fun closer => groupTail closer []) = none := by
      simp [groupTail]
    have hend : (x == ',' || x == ')') = false := by
      simp [hx.ne ',' (by decide), hx.ne ')' (by decide)]
    simp [argLength, sealedItem_singleton hx, hgroup, hend]
  | case2 c rest n hn ih =>
    rw [List.cons_append, argLength]
    rcases drop_sealedItem_concat hx hn with ⟨hsealed, hdrop⟩ | ⟨hlength, hsealed, hdrop, hdrop'⟩
    · have hle := sealedItem_le hn
      have hpos := sealedItem_pos hn
      simp only [hsealed, hdrop, ih, List.length_drop, List.length_cons] at hle ⊢
      split <;> split <;> omega
    · simp [hsealed, argLength, hlength]
  | case3 c rest hnone n hn ih =>
    obtain ⟨closer, -, hgroup⟩ := Option.bind_eq_some_iff.mp hn
    have hle := groupTail_le hgroup
    rw [List.cons_append, argLength, sealedItem_concat_of_none hx hnone]
    simp only [group_concat hx, hn, List.drop_append_of_le_length hle, ih, List.length_drop,
      List.length_cons]
    split <;> split <;> omega
  | case4 c rest hnone hgroup hend =>
    rw [List.cons_append, argLength, sealedItem_concat_of_none hx hnone]
    simp [group_concat hx, hgroup, hend]
  | case5 c rest hnone hgroup hend ih =>
    rw [List.cons_append, argLength, sealedItem_concat_of_none hx hnone]
    simp only [group_concat hx, hgroup]
    rw [if_neg hend, ih, List.length_cons]
    split <;> split <;> omega

/-! ## Pieces -/

/-- Neither a parenthesis nor a comma ends the arguments. -/
theorem argsFrom_none (hclose : ∀ rest, cs.drop (argLength cs) = ')' :: rest → False)
    (hcomma : ∀ rest, cs.drop (argLength cs) = ',' :: rest → False) : argsFrom cs = none := by
  fun_cases argsFrom cs with
  | case1 rest h => exact (hclose rest h).elim
  | case2 rest h => exact (hcomma rest h).elim
  | case3 => rfl

/-- Behind an argument the text goes on with `x` at its end, or nothing is left of either text. -/
theorem drop_argLength_concat (hx : Inert x) (cs : List Char) :
    (argLength (cs ++ [x]) = argLength cs ∧
      (cs ++ [x]).drop (argLength (cs ++ [x])) = cs.drop (argLength cs) ++ [x]) ∨
      ((cs ++ [x]).drop (argLength (cs ++ [x])) = [] ∧ cs.drop (argLength cs) = []) := by
  rw [argLength_concat hx]
  split
  · next hend => exact .inr ⟨List.drop_eq_nil_of_le (by simp), List.drop_eq_nil_of_le hend.ge⟩
  · exact .inl ⟨rfl, List.drop_append_of_le_length (argLength_le cs)⟩

/-- The arguments of a call are found without what follows it. -/
theorem argsFrom_concat (hx : Inert x) (cs : List Char) : argsFrom (cs ++ [x]) = argsFrom cs := by
  fun_induction argsFrom cs with
  | case1 cs rest hdrop =>
    rcases drop_argLength_concat hx cs with ⟨hlength, hconcat⟩ | ⟨-, hnil⟩
    · rw [hdrop, List.cons_append] at hconcat
      rw [argsFrom_close hconcat, hlength, List.take_append_of_le_length (argLength_le cs)]
    · cases hdrop.symm.trans hnil
  | case2 cs rest hdrop ih =>
    rcases drop_argLength_concat hx cs with ⟨hlength, hconcat⟩ | ⟨-, hnil⟩
    · rw [hdrop, List.cons_append] at hconcat
      rw [argsFrom_comma hconcat, hlength, List.take_append_of_le_length (argLength_le cs), ih]
    · cases hdrop.symm.trans hnil
  | case3 cs hclose hcomma =>
    have hparen : x ∉ [')'] := hx.not_mem (by decide)
    have hmark : x ∉ [','] := hx.not_mem (by decide)
    rcases drop_argLength_concat hx cs with ⟨-, hconcat⟩ | ⟨hnil, -⟩
    · refine argsFrom_none (fun rest hrest => ?_) fun rest hrest => ?_
      · obtain ⟨before, hbefore⟩ := exists_append_of_concat hparen (hconcat.symm.trans hrest)
        exact hclose before hbefore
      · obtain ⟨before, hbefore⟩ := exists_append_of_concat hmark (hconcat.symm.trans hrest)
        exact hcomma before hbefore
    · exact argsFrom_none (by simp [hnil]) (by simp [hnil])

/-- Characters of a kind that end before the end of the text do not reach what is written there. -/
theorem span_concat {kind : Char → Bool} (h : cs.dropWhile kind ≠ []) :
    (cs ++ [x]).takeWhile kind = cs.takeWhile kind ∧
      (cs ++ [x]).dropWhile kind = cs.dropWhile kind ++ [x] := by
  have hdrop : (cs ++ [x]).dropWhile kind = cs.dropWhile kind ++ [x] := by
    rw [List.dropWhile_append, if_neg (by simpa using h)]
  refine ⟨List.append_cancel_right (?_ : _ = _ ++ (cs.dropWhile kind ++ [x])), hdrop⟩
  rw [← hdrop, List.takeWhile_append_dropWhile, hdrop, ← List.append_assoc,
    List.takeWhile_append_dropWhile]

/-- A call is found without what follows it. -/
theorem callAt_concat (hx : Inert x) (cs : List Char) : callAt (cs ++ [x]) = callAt cs := by
  unfold callAt
  rw [(steady_identLength hx).concat]
  refine Option.bind_congr fun n hn => ?_
  have hle := (identLength_bounds hn).2
  rw [List.drop_append_of_le_length hle, List.take_append_of_le_length hle]
  generalize cs.drop n = after
  cases hopen : after.dropWhile Text.isWhite with
  | nil =>
    have hdrop : (after ++ [x]).dropWhile Text.isWhite = [x].dropWhile Text.isWhite := by
      rw [List.dropWhile_append, hopen]
      rfl
    have hparen : x ≠ '(' := hx.ne '(' (by decide)
    cases hwhite : Text.isWhite x <;> simp [hdrop, hwhite, hparen]
  | cons d rest =>
    obtain ⟨htake, hdrop⟩ : (after ++ [x]).takeWhile Text.isWhite = after.takeWhile Text.isWhite ∧
        (after ++ [x]).dropWhile Text.isWhite = after.dropWhile Text.isWhite ++ [x] :=
          span_concat (by simp [hopen])
    rw [hopen] at hdrop
    by_cases hd : d = '('
    · subst hd
      simp [hdrop, htake, argsFrom_concat hx]
    · simp [hdrop, hd]

/-- Leaves that are all as before have the same first one. -/
theorem firstLeaf_congr {leaves : List (LeafKind × (List Char → Option Nat))} {cs' : List Char}
    (h : ∀ leaf ∈ leaves, leaf.2 cs' = leaf.2 cs) : firstLeaf leaves cs' = firstLeaf leaves cs := by
  induction leaves with
  | nil => rfl
  | cons leaf leaves ih =>
    rw [List.forall_mem_cons] at h
    have hothers := ih h.2
    unfold firstLeaf at hothers ⊢
    rw [List.findSome?_cons, List.findSome?_cons, h.1, hothers]

/-- Line comments are looked for first. -/
theorem firstLeaf_of_lineComment (h : lineComment cs = some n) :
    firstLeaf leafExtents cs = some (.lineComment, n) := by
  simp [firstLeaf, leafExtents, h]

/-- A leaf reaches no further than the text. -/
theorem firstLeaf_le {kind : LeafKind} (h : firstLeaf leafExtents cs = some (kind, n)) :
    n ≤ cs.length := by
  obtain ⟨leaf, hmem, -, hn⟩ := exists_of_firstLeaf h
  rcases List.mem_cons.mp hmem with rfl | hmem
  · exact lineComment_le hn
  · exact (steady_leaf inert_blank hmem).within cs n hn

/-- The first leaf is as before, unless it is a line comment that reaches to the end. -/
theorem firstLeaf_concat (hx : Inert x) (h : lineComment cs ≠ some cs.length) :
    firstLeaf leafExtents (cs ++ [x]) = firstLeaf leafExtents cs := by
  refine firstLeaf_congr fun leaf hmem => ?_
  rcases List.mem_cons.mp hmem with rfl | hmem
  · exact (lineComment_concat hx cs).trans (if_neg h)
  · exact (steady_leaf hx hmem).concat cs

/-- An identifier that is no call and no part of a leaf is the first piece. -/
theorem firstPiece_of_identLength (hleaf : firstLeaf leafExtents (c :: rest) = none)
    (hcall : callAt (c :: rest) = none) (hident : identLength (c :: rest) = some n) :
    firstPiece c rest = .leaf .ident ((c :: rest).take n) := by
  fun_cases firstPiece c rest with
  | case1 cs kind n hleaf' => cases hleaf.symm.trans hleaf'
  | case2 cs _ call hcall' => cases hcall.symm.trans hcall'
  | case3 cs _ _ n' hident' =>
    obtain rfl := Option.some.inj (hident.symm.trans hident')
    rfl
  | case4 cs _ _ hident' => cases hident.symm.trans hident'

/-- All else is a single character. -/
theorem firstPiece_of_none (hleaf : firstLeaf leafExtents (c :: rest) = none)
    (hcall : callAt (c :: rest) = none) (hident : identLength (c :: rest) = none) :
    firstPiece c rest = .leaf .other [c] := by
  fun_cases firstPiece c rest with
  | case1 cs kind n hleaf' => cases hleaf.symm.trans hleaf'
  | case2 cs _ call hcall' => cases hcall.symm.trans hcall'
  | case3 cs _ _ n' hident' => cases hident.symm.trans hident'
  | case4 => rfl

/-- The first piece is as before, unless it is a line comment that reaches to the end. -/
theorem firstPiece_concat (hx : Inert x) (h : lineComment (c :: rest) ≠ some (c :: rest).length) :
    firstPiece c (rest ++ [x]) = firstPiece c rest := by
  have hleaves := firstLeaf_concat hx h
  have hcalls := callAt_concat hx (c :: rest)
  have hidents := (steady_identLength hx).concat (c :: rest)
  rw [List.cons_append] at hleaves hcalls hidents
  fun_cases firstPiece c rest with
  | case1 cs kind n hleaf =>
    rw [firstPiece_of_firstLeaf (hleaves.trans hleaf), ← List.cons_append,
      List.take_append_of_le_length (firstLeaf_le hleaf)]
  | case2 cs hleaf call hcall =>
    exact firstPiece_of_callAt (hleaves.trans hleaf) (hcalls.trans hcall)
  | case3 cs hleaf hcall n hident =>
    rw [firstPiece_of_identLength (hleaves.trans hleaf) (hcalls.trans hcall) (hidents.trans hident),
      ← List.cons_append, List.take_append_of_le_length (identLength_bounds hident).2]
  | case4 cs hleaf hcall hident =>
    exact firstPiece_of_none (hleaves.trans hleaf) (hcalls.trans hcall) (hidents.trans hident)

/-- What follows the first piece, with `x` at its end. -/
theorem behindFirst_concat (h : firstPiece c (rest ++ [x]) = firstPiece c rest) :
    behindFirst c (rest ++ [x]) = behindFirst c rest ++ [x] := by
  have htext := text_append_behindFirst c (rest ++ [x])
  rw [h, ← List.cons_append, ← text_append_behindFirst c rest, List.append_assoc] at htext
  exact List.append_cancel_left htext

/-- A piece that takes in the whole text is the only one. -/
theorem scan_of_firstPiece (h : (firstPiece c rest).text = c :: rest) :
    scan (c :: rest) = [firstPiece c rest] := by
  have hbehind : behindFirst c rest = [] := by
    have htext := text_append_behindFirst c rest
    rw [h] at htext
    exact List.append_right_eq_self.mp htext
  rw [scan_cons, hbehind, scan]

/-- A line comment that reaches to the end is the only piece. -/
theorem scan_of_lineComment (h : lineComment (c :: rest) = some (c :: rest).length) :
    scan (c :: rest) = [.leaf .lineComment (c :: rest)] := by
  have hfirst := firstPiece_of_firstLeaf (firstLeaf_of_lineComment h)
  rw [List.take_length] at hfirst
  rw [scan_of_firstPiece (by rw [hfirst, Piece.text]), hfirst]

/-- A line comment that is the first piece is the one at the start of the text. -/
theorem lineComment_of_firstPiece (h : firstPiece c rest = .leaf .lineComment text) :
    ∃ n, lineComment (c :: rest) = some n ∧ text = (c :: rest).take n := by
  revert h
  fun_cases firstPiece c rest with
  | case1 cs kind n hleaf =>
    intro h
    obtain ⟨rfl, rfl⟩ := Piece.leaf.inj h
    obtain ⟨leaf, hmem, hkind, hn⟩ := exists_of_firstLeaf hleaf
    have hcomment : ∀ leaf ∈ leafExtents.tail, leaf.1 ≠ .lineComment := by simp [leafExtents]
    rcases List.mem_cons.mp hmem with rfl | hmem
    · exact ⟨n, hn, rfl⟩
    · exact absurd hkind (hcomment leaf hmem)
  | case2 | case3 | case4 =>
    intro h
    cases h

/-- The last piece of the text is a line comment. -/
def EndsInComment (cs : List Char) : Prop :=
  ∃ pieces text, scan cs = pieces ++ [.leaf .lineComment text]

/-- A line comment that is the last piece takes in a character at the end of the text. -/
theorem scan_concat_of_comment (hx : Inert x) {pieces : List Piece}
    (h : scan cs = pieces ++ [.leaf .lineComment text]) :
    scan (cs ++ [x]) = pieces ++ [.leaf .lineComment (text ++ [x])] := by
  induction cs using piece_induction generalizing pieces with
  | nil => simp [scan] at h
  | cons c rest _ ih =>
    by_cases hend : lineComment (c :: rest) = some (c :: rest).length
    · have hconcat := lineComment_concat hx (c :: rest)
      rw [if_pos hend] at hconcat
      rw [scan_of_lineComment hend] at h
      obtain ⟨rfl, rfl⟩ : pieces = [] ∧ text = c :: rest := by
        simpa [List.append_eq_singleton_iff] using h.symm
      rw [List.cons_append, List.nil_append]
      exact scan_of_lineComment (by simpa using hconcat)
    · have hfirst := firstPiece_concat hx hend
      rw [scan_cons] at h
      cases pieces with
      | nil =>
        -- a comment that is the only piece reaches to the end, which is the case above
        obtain ⟨hpiece, hnil⟩ := List.cons.inj h
        obtain ⟨n, hn, rfl⟩ := lineComment_of_firstPiece hpiece
        have htext := text_append_behindFirst c rest
        rw [hpiece, Piece.text, ← flatMap_text_scan (behindFirst c rest), hnil, List.flatMap_nil,
          List.append_nil] at htext
        have hle := lineComment_le hn
        have hlength := congrArg List.length htext
        rw [List.length_take, Nat.min_eq_left hle] at hlength
        exact absurd (hn.trans (congrArg some hlength)) hend
      | cons piece pieces =>
        obtain ⟨rfl, hmore⟩ := List.cons.inj h
        rw [List.cons_append, scan_cons, hfirst, behindFirst_concat hfirst, ih hmore]
        rfl

/-- In any other text a character at the end is a piece of its own. -/
theorem scan_concat (hx : Inert x) (h : ¬EndsInComment cs) :
    scan (cs ++ [x]) = scan cs ++ [.leaf .other [x]] := by
  induction cs using piece_induction with
  | nil =>
    have hleaf : firstLeaf leafExtents ([] ++ [x]) = none :=
      firstLeaf_concat hx (by simp [lineComment])
    have hfirst : firstPiece x [] = .leaf .other [x] :=
      firstPiece_of_none hleaf (callAt_concat hx []) ((steady_identLength hx).concat [])
    rw [List.nil_append, scan_of_firstPiece (by rw [hfirst, Piece.text]), hfirst, scan,
      List.nil_append]
  | cons c rest _ ih =>
    have hend : lineComment (c :: rest) ≠ some (c :: rest).length := fun hend =>
      h ⟨[], c :: rest, scan_of_lineComment hend⟩
    have hmore : ¬EndsInComment (behindFirst c rest) := by
      rintro ⟨pieces, text, hpieces⟩
      exact h ⟨firstPiece c rest :: pieces, text, by rw [scan_cons, hpieces, List.cons_append]⟩
    have hfirst := firstPiece_concat hx hend
    rw [List.cons_append, scan_cons, hfirst, behindFirst_concat hfirst, ih hmore, scan_cons,
      List.cons_append]

/-- With the character at its end a text ends in a comment if it did before. -/
theorem endsInComment_concat_iff (hx : Inert x) : EndsInComment (cs ++ [x]) ↔ EndsInComment cs := by
  constructor
  · intro h
    by_contra hends
    obtain ⟨pieces, text, hpieces⟩ := h
    rw [scan_concat hx hends] at hpieces
    cases (List.append_inj' hpieces rfl).2
  · rintro ⟨pieces, text, hpieces⟩
    exact ⟨pieces, text ++ [x], scan_concat_of_comment hx hpieces⟩

/-- The character is the last piece if it is not in a comment. -/
theorem getLast?_scan_concat_iff (hx : Inert x) :
    (scan (cs ++ [x])).getLast? = some (.leaf .other [x]) ↔ ¬EndsInComment cs := by
  constructor
  · rintro hlast ⟨pieces, text, hpieces⟩
    rw [scan_concat_of_comment hx hpieces, List.getLast?_concat] at hlast
    cases hlast
  · intro hends
    rw [scan_concat hx hends, List.getLast?_concat]

/-- A line comment starts with two slashes and has no line feed. -/
theorem take_lineComment (h : lineComment cs = some n) :
    ∃ comment, cs.take n = '/' :: '/' :: comment ∧ '\n' ∉ comment := by
  revert h
  fun_cases lineComment cs with
  | case1 rest =>
    intro h
    cases h
    refine ⟨rest.takeWhile fun c => c != '\n' && c != '\r', ?_, fun hmem => ?_⟩
    · rw [Nat.add_comm, List.take_succ_cons, List.take_succ_cons, lineLength,
        ← List.prefix_iff_eq_take.mp (List.takeWhile_prefix _)]
    · have hinside := List.all_eq_true.mp List.all_takeWhile _ hmem
      exact absurd hinside (by decide)
  | case2 =>
    intro h
    cases h

/-- A text that ends in a line comment has two slashes on its last line. -/
theorem EndsInComment.exists_eq (h : EndsInComment cs) :
    ∃ before comment, cs = before ++ '/' :: '/' :: comment ∧ '\n' ∉ comment := by
  obtain ⟨pieces, text, hscan⟩ := h
  obtain ⟨c, rest, hpiece⟩ := exists_of_mem_scan (by rw [hscan]; exact List.mem_concat_self)
  obtain ⟨n, hn, rfl⟩ := lineComment_of_firstPiece hpiece.symm
  obtain ⟨comment, htake, hcomment⟩ := take_lineComment hn
  have htext := flatMap_text_scan cs
  rw [hscan, List.flatMap_append, List.flatMap_singleton, Piece.text, htake] at htext
  exact ⟨pieces.flatMap Piece.text, comment, htext.symm, hcomment⟩

/-- A text with no slashes on its last line ends in no comment. -/
theorem not_endsInComment {front back : List Char} (h : '/' ∉ back) :
    ¬EndsInComment (front ++ '\n' :: back) := by
  intro hends
  obtain ⟨before, comment, heq, hcomment⟩ := hends.exists_eq
  -- the slashes are behind the line feed, where there are none, or before it, and then it is in the
  -- comment
  rcases List.append_eq_append_iff.mp heq with ⟨middle, -, hmiddle⟩ | ⟨middle, -, hmiddle⟩
  · cases middle with
    | nil => cases hmiddle
    | cons d middle =>
      refine h ?_
      rw [(List.cons.inj hmiddle).2]
      simp
  · have hbreak : '\n' ∈ '/' :: '/' :: comment := by
      rw [hmiddle]
      simp
    simp [hcomment] at hbreak

end Statechart.Snippet
