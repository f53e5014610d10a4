import Statechart.Snippet.Extent

/-!
# Pieces of a snippet

A guard or an action is cut into pieces from left to right: comments, literals, member accesses,
calls with their arguments, identifiers, and single characters for all else. Every text has exactly
one such cut.
-/

namespace Statechart.Snippet

/-- The kinds of pieces that have no parts. -/
inductive LeafKind where
  | lineComment | blockComment | rawString | string | charLiteral | lifetime | number | range
  | member | ident | other
deriving DecidableEq, Repr

/-- A call: the name, the white space behind it and the texts between its commas. -/
structure Call where
  name : List Char
  gap : List Char
  args : List (List Char)
deriving DecidableEq, Repr

/-- The arguments of a call in parentheses. -/
def Call.argsText (call : Call) : List Char := '(' :: ([','].intercalate call.args ++ [')'])

/-- A call without its name. -/
def Call.tail (call : Call) : List Char := call.gap ++ call.argsText

/-- The text of a call. -/
def Call.text (call : Call) : List Char := call.name ++ call.tail

/-- A piece of a snippet. -/
inductive Piece where
  | leaf (kind : LeafKind) (text : List Char)
  | call (body : Call)
deriving DecidableEq, Repr

/-- The text of a piece. -/
def Piece.text : Piece → List Char
  | leaf _ text => text
  | call body => body.text

/-- The arguments up to the parenthesis that closes the call. -/
def argsFrom (cs : List Char) : Option (List (List Char)) :=
  match _h : cs.drop (argLength cs) with
  | ')' :: _ => some [cs.take (argLength cs)]
  | ',' :: rest => (argsFrom rest).map (cs.take (argLength cs) :: ·)
  | _ => none
termination_by cs.length
decreasing_by
  have := congrArg List.length _h
  simp only [List.length_drop, List.length_cons] at this
  omega

/-- The call at the start of a text: an identifier, white space and closed parentheses. -/
def callAt (cs : List Char) : Option Call :=
  (identLength cs).bind fun n =>
    let gap := (cs.drop n).takeWhile Text.isWhite
    match (cs.drop n).dropWhile Text.isWhite with
    | '(' :: rest => (argsFrom rest).map fun args => ⟨cs.take n, gap, args⟩
    | _ => none

/-- The leaves that are looked for before calls and identifiers, in this order. -/
def leafExtents : List (LeafKind × (List Char → Option Nat)) :=
  [(.lineComment, lineComment), (.blockComment, blockComment), (.rawString, rawString),
   (.string, stringLiteral), (.charLiteral, charLiteral), (.lifetime, lifetime), (.number, number),
   (.range, range), (.member, member)]

/-- The first piece of a text that starts with `c`. -/
def firstPiece (c : Char) (rest : List Char) : Piece :=
  let cs := c :: rest
  match leafExtents.findSome? fun (kind, extent) => (extent cs).map (kind, ·) with
  | some (kind, n) => .leaf kind (cs.take n)
  | none =>
    match callAt cs with
    | some call => .call call
    | none =>
      match identLength cs with
      | some n => .leaf .ident (cs.take n)
      | none => .leaf .other [c]

/-- The pieces of a text. -/
def scan : List Char → List Piece
  | [] => []
  | c :: rest =>
    let piece := firstPiece c rest
    piece :: scan (rest.drop (piece.text.length - 1))
termination_by cs => cs.length
decreasing_by simp only [List.length_drop, List.length_cons]; omega

/-- The arguments of a call, their commas and the closing parenthesis start the text
they were read from. -/
theorem argsFrom_text {cs : List Char} {args : List (List Char)} (h : argsFrom cs = some args) :
    ∃ rest, cs = [','].intercalate args ++ ')' :: rest := by
  fun_induction argsFrom cs generalizing args with
  | case1 cs rest hdrop =>
    cases h
    refine ⟨rest, ?_⟩
    rw [← hdrop]
    simp
  | case2 cs rest hdrop ih =>
    obtain ⟨more, hmore, rfl⟩ := Option.map_eq_some_iff.mp h
    obtain ⟨tail, htail⟩ := ih hmore
    refine ⟨tail, ?_⟩
    cases more with
    | nil => unfold argsFrom at hmore; split at hmore <;> simp_all
    | cons first others =>
      conv => lhs; rw [← List.take_append_drop (argLength cs) cs, hdrop, htail]
      simp
  | case3 => simp at h

/-- An identifier is not empty and lies within the text. -/
theorem identLength_bounds {cs : List Char} {n : Nat} (h : identLength cs = some n) :
    0 < n ∧ n ≤ cs.length := by
  cases cs with
  | nil => simp [identLength] at h
  | cons c rest =>
    have hle := (List.takeWhile_prefix (l := rest) Text.isNameContinue).length_le
    simp only [identLength] at h
    split at h
    · cases h
      simp only [List.length_cons]
      omega
    · simp at h

/-- A call starts the text it was read from. -/
theorem callAt_text {cs : List Char} {call : Call} (h : callAt cs = some call) :
    ∃ rest, cs = call.text ++ rest := by
  simp only [callAt, Option.bind_eq_some_iff] at h
  obtain ⟨n, -, h⟩ := h
  split at h
  · rename_i rest hopen
    obtain ⟨args, hargs, rfl⟩ := Option.map_eq_some_iff.mp h
    obtain ⟨more, hmore⟩ := argsFrom_text hargs
    refine ⟨more, ?_⟩
    have hgap := List.takeWhile_append_dropWhile (p := Text.isWhite) (l := cs.drop n)
    rw [hopen, hmore] at hgap
    simp only [Call.text, Call.tail, Call.argsText]
    conv => lhs; rw [← List.take_append_drop n cs, ← hgap]
    simp
  · simp at h

/-- The name of a call is not empty. -/
theorem callAt_name_length_pos {cs : List Char} {call : Call} (h : callAt cs = some call) :
    0 < call.name.length := by
  simp only [callAt, Option.bind_eq_some_iff] at h
  obtain ⟨n, hn, h⟩ := h
  have hbounds := identLength_bounds hn
  split at h
  · obtain ⟨args, -, rfl⟩ := Option.map_eq_some_iff.mp h
    simp only [List.length_take]
    omega
  · simp at h

/-- What follows the name of a call is shorter than the text the call was read from. -/
theorem callAt_tail_length_lt {cs : List Char} {call : Call} (h : callAt cs = some call) :
    call.tail.length < cs.length := by
  obtain ⟨rest, hrest⟩ := callAt_text h
  have hpos := callAt_name_length_pos h
  rw [hrest]
  simp only [Call.text, List.length_append]
  omega

/-- A call that is the first piece is the call at the start of the text. -/
theorem callAt_of_firstPiece {c : Char} {rest : List Char} {call : Call}
    (h : firstPiece c rest = .call call) :
    callAt (c :: rest) = some call := by
  simp only [firstPiece] at h
  split at h
  · simp at h
  · split at h
    · rename_i hcall
      cases h
      exact hcall
    · split at h <;> simp at h

/-- The tail of a call that is the first piece is shorter than the text. -/
theorem firstPiece_call_tail_length_lt {c : Char} {rest : List Char} {call : Call}
    (h : firstPiece c rest = .call call) : call.tail.length < (c :: rest).length :=
  callAt_tail_length_lt (callAt_of_firstPiece h)

end Statechart.Snippet
