import Statechart.Snippet.Piece

/-!
# The grammar of snippets

The cut of a snippet into pieces is given by a grammar with ordered choice: of two alternatives the
second is tried only where the first one fails, and a repetition goes on for as long as it can and
never gives back. A text may be put on a stack while it is read and be looked for later, which is
how a raw string finds its end. What a failed attempt put on the stack is gone with it.

Here is the grammar, and what it means that an expression of it reads a text. Reading has one
outcome at most.
-/

namespace Statechart.Snippet

/-- The rules of the grammar. Each kind of piece without parts has a rule of its own. -/
inductive Rule where
  | code | piece | call | args | arg | argPiece | group | groupPiece
  | leaf (kind : LeafKind)
deriving DecidableEq, Repr

/-- Expressions of the grammar. -/
inductive Peg where
  /-- A fixed text. -/
  | lit (text : List Char)
  /-- One character of a class. -/
  | char (holds : Char → Bool)
  /-- The end of the text. -/
  | eoi
  /-- One expression behind another. -/
  | seq (first second : Peg)
  /-- The second expression where the first one fails. -/
  | alt (first second : Peg)
  /-- The expression as often as it can be read. -/
  | star (body : Peg)
  /-- Nothing, where the expression fails. -/
  | avoid (body : Peg)
  /-- The expression, whose text is put on the stack. -/
  | push (body : Peg)
  /-- The text on top of the stack. -/
  | peek
  /-- The text on top of the stack, which is taken from it. -/
  | pop
  | rule (name : Rule)

namespace Peg

/-- Expressions one behind the other. -/
def inOrder (first : List Peg) (last : Peg) : Peg := first.foldr .seq last

/-- The first of some expressions that can be read. -/
def choice (first : List Peg) (last : Peg) : Peg := first.foldr .alt last

/-- The expression, or nothing. -/
def optional (e : Peg) : Peg := .alt e (.lit [])

/-- Any one character. -/
def any : Peg := .char fun _ => true

/-- Any one character, unless the expression can be read. -/
def anyBut (e : Peg) : Peg := .seq (.avoid e) any

/-- The end of a line. -/
def newline : Peg := choice [.lit ['\n'], .lit ['\r', '\n']] (.lit ['\r'])

/-- White space. -/
def blanks : Peg := .star (.char Text.isWhite)

/-- A group between two brackets. -/
def bracketed (opener closer : Char) : Peg :=
  inOrder [.lit [opener], .star (.rule .groupPiece)] (.lit [closer])

/-- The rules for pieces inside which nothing has a meaning. -/
def sealedRules : List Peg :=
  [LeafKind.lineComment, .blockComment, .rawString, .string, .charLiteral].map (.rule ∘ .leaf)

end Peg

/-- The expression for the pieces of a kind. -/
def LeafKind.body : LeafKind → Peg
  | lineComment => .seq (.lit ['/', '/']) (.star (.anyBut .newline))
  | blockComment =>
    .inOrder [.lit ['/', '*'],
      .star (.alt (.rule (.leaf .blockComment)) (.anyBut (.lit ['*', '/'])))]
      (.lit ['*', '/'])
  | rawString =>
    .inOrder [.optional (.lit ['b']), .lit ['r'], .push (.star (.lit ['#'])), .lit ['"'],
      .star (.anyBut (.seq (.lit ['"']) .peek)), .lit ['"']] .pop
  | string =>
    .inOrder [.optional (.lit ['b']), .lit ['"'],
      .star (.alt (.seq (.lit ['\\']) .any) (.anyBut (.lit ['"'])))] (.lit ['"'])
  | charLiteral =>
    .inOrder [.optional (.lit ['b']), .lit ['\''],
      .alt (.inOrder [.lit ['\\'], .any] (.star (.anyBut (.lit ['\'']))))
        (.anyBut (.alt (.lit ['\'']) (.lit ['\\'])))] (.lit ['\''])
  | lifetime => .seq (.lit ['\'']) (.rule (.leaf .ident))
  | number => .seq (.char Char.isDigit) (.star (.char fun d => d.isAlphanum || d == '_'))
  | range => .seq (.lit ['.', '.']) (.optional (.lit ['=']))
  | member => .inOrder [.alt (.lit [':', ':']) (.lit ['.']), .blanks] (.rule (.leaf .ident))
  | ident => .seq (.char Text.isNameStart) (.star (.char Text.isNameContinue))
  | other => .any

/-- The expression that a rule stands for. -/
def Rule.body : Rule → Peg
  | code => .seq (.star (.rule .piece)) .eoi
  | piece =>
    .choice (Peg.sealedRules ++ [.rule (.leaf .lifetime), .rule (.leaf .number),
      .rule (.leaf .range), .rule (.leaf .member), .rule .call, .rule (.leaf .ident)])
        (.rule (.leaf .other))
  | call => .inOrder [.rule (.leaf .ident), .blanks] (.rule .args)
  | args => .inOrder [.lit ['('], .rule .arg, .star (.seq (.lit [',']) (.rule .arg))] (.lit [')'])
  | arg => .star (.rule .argPiece)
  | argPiece =>
    .choice (Peg.sealedRules ++ [.rule .group]) (.anyBut (.alt (.lit [',']) (.lit [')'])))
  | group => .choice [.bracketed '(' ')', .bracketed '[' ']'] (.bracketed '{' '}')
  | groupPiece =>
    .choice (Peg.sealedRules ++ [.rule .group])
      (.anyBut (.choice [.lit [')'], .lit [']']] (.lit ['}'])))
  | leaf kind => kind.body

/-- What a node of a parse tree stands for. -/
inductive Label where
  | code | call | args | arg | eoi
  | leaf (kind : LeafKind)
deriving DecidableEq, Repr

/-- A node of a parse tree: the text that was read for it and the nodes inside it. -/
inductive Node where
  | node (label : Label) (text : List Char) (parts : List Node)

namespace Node

/-- What the node stands for. -/
def label : Node → Label
  | node label _ _ => label

/-- The text that was read for the node. -/
def text : Node → List Char
  | node _ text _ => text

/-- The nodes inside the node. -/
def parts : Node → List Node
  | node _ _ parts => parts

/-- The node for the end of the text. -/
def eoi : Node := node .eoi [] []

end Node

/-- What a rule leaves of the nodes that were found while it was read: a node around them, a node in
place of them, or just them. -/
def Rule.wrap (text : List Char) (nodes : List Node) : Rule → List Node
  | code => [.node .code text nodes]
  | call => [.node .call text nodes]
  | args => [.node .args text nodes]
  | arg => [.node .arg text []]
  | leaf kind => [.node (.leaf kind) text []]
  | piece | argPiece | group | groupPiece => nodes

/-- What came of reading: the text that was read, the nodes for it, the text that is
left, and the stack. -/
structure Reading where
  text : List Char
  nodes : List Node
  rest : List Char
  stack : List (List Char)

namespace Reading

/-- One reading and another one behind it. -/
def append (first second : Reading) : Reading :=
  ⟨first.text ++ second.text, first.nodes ++ second.nodes, second.rest, second.stack⟩

/-- The reading of a rule from that of its expression. -/
def wrap (rule : Rule) (reading : Reading) : Reading :=
  { reading with nodes := rule.wrap reading.text reading.nodes }

end Reading

/-- What comes of reading a text with an expression: a reading, or nothing where the
expression fails. -/
inductive Parses : Peg → List (List Char) → List Char → Option Reading → Prop
  | lit {text rest cs : List Char} {stack : List (List Char)} (h : cs = text ++ rest) :
      Parses (.lit text) stack cs (some ⟨text, [], rest, stack⟩)
  | lit_fail {text cs : List Char} {stack : List (List Char)} (h : ∀ rest, cs ≠ text ++ rest) :
      Parses (.lit text) stack cs none
  | char {holds : Char → Bool} {c : Char} {rest : List Char} {stack : List (List Char)}
      (h : holds c) :
      Parses (.char holds) stack (c :: rest) (some ⟨[c], [], rest, stack⟩)
  | char_fail {holds : Char → Bool} {cs : List Char} {stack : List (List Char)}
      (h : ∀ c rest, cs = c :: rest → holds c = false) : Parses (.char holds) stack cs none
  | eoi {stack : List (List Char)} : Parses .eoi stack [] (some ⟨[], [Node.eoi], [], stack⟩)
  | eoi_fail {c : Char} {rest : List Char} {stack : List (List Char)} :
      Parses .eoi stack (c :: rest) none
  | seq {first second : Peg} {stack : List (List Char)} {cs : List Char} {reading : Reading}
      {result : Option Reading}
      (hfirst : Parses first stack cs (some reading))
        (hsecond : Parses second reading.stack reading.rest result) :
      Parses (.seq first second) stack cs (result.map reading.append)
  | seq_fail {first second : Peg} {stack : List (List Char)} {cs : List Char}
      (hfirst : Parses first stack cs none) : Parses (.seq first second) stack cs none
  | alt {first second : Peg} {stack : List (List Char)} {cs : List Char} {reading : Reading}
      (hfirst : Parses first stack cs (some reading)) :
        Parses (.alt first second) stack cs (some reading)
  | alt_fail {first second : Peg} {stack : List (List Char)} {cs : List Char}
      {result : Option Reading}
      (hfirst : Parses first stack cs none) (hsecond : Parses second stack cs result) :
      Parses (.alt first second) stack cs result
  | star {body : Peg} {stack : List (List Char)} {cs : List Char} {first others : Reading}
      (hfirst : Parses body stack cs (some first))
      (hothers : Parses (.star body) first.stack first.rest (some others)) :
      Parses (.star body) stack cs (some (first.append others))
  | star_end {body : Peg} {stack : List (List Char)} {cs : List Char}
      (hend : Parses body stack cs none) :
      Parses (.star body) stack cs (some ⟨[], [], cs, stack⟩)
  | avoid {body : Peg} {stack : List (List Char)} {cs : List Char}
      (hbody : Parses body stack cs none) :
      Parses (.avoid body) stack cs (some ⟨[], [], cs, stack⟩)
  | avoid_fail {body : Peg} {stack : List (List Char)} {cs : List Char} {reading : Reading}
      (hbody : Parses body stack cs (some reading)) : Parses (.avoid body) stack cs none
  | push {body : Peg} {stack : List (List Char)} {cs : List Char} {reading : Reading}
      (hbody : Parses body stack cs (some reading)) :
      Parses (.push body) stack cs (some { reading with stack := reading.text :: reading.stack })
  | push_fail {body : Peg} {stack : List (List Char)} {cs : List Char}
      (hbody : Parses body stack cs none) :
      Parses (.push body) stack cs none
  | peek {top rest cs : List Char} {stack : List (List Char)} (h : cs = top ++ rest) :
      Parses .peek (top :: stack) cs (some ⟨top, [], rest, top :: stack⟩)
  | peek_fail {cs : List Char} {stack : List (List Char)}
      (h : ∀ top others, stack = top :: others → ∀ rest, cs ≠ top ++ rest) :
        Parses .peek stack cs none
  | pop {top rest cs : List Char} {stack : List (List Char)} (h : cs = top ++ rest) :
      Parses .pop (top :: stack) cs (some ⟨top, [], rest, stack⟩)
  | pop_fail {cs : List Char} {stack : List (List Char)}
      (h : ∀ top others, stack = top :: others → ∀ rest, cs ≠ top ++ rest) :
        Parses .pop stack cs none
  | rule {name : Rule} {stack : List (List Char)} {cs : List Char} {result : Option Reading}
      (hbody : Parses name.body stack cs result) :
      Parses (.rule name) stack cs (result.map (Reading.wrap name))

/-- Readings one behind the other can be put together in either order. -/
theorem Reading.append_comp_append (first second : Reading) :
    first.append ∘ second.append = (first.append second).append := by
  funext third
  simp [Reading.append]

variable {a b e : Peg} {stack : List (List Char)} {cs : List Char} {first : Reading}
  {result result' : Option Reading}

/-- A repetition and what stands behind it are read by one round and then the same again. -/
theorem Parses.star_seq (ha : Parses a stack cs (some first))
    (hmore : Parses (.seq (.star a) b) first.stack first.rest result) :
    Parses (.seq (.star a) b) stack cs (result.map first.append) := by
  cases hmore with
  | @seq _ _ _ _ others last hstar hb =>
    rw [Option.map_map, Reading.append_comp_append]
    exact Parses.seq (Parses.star ha hstar) hb
  | seq_fail hstar => cases hstar

/-- Reading a text with an expression has one outcome at most. -/
theorem Parses.unique (h : Parses e stack cs result) (h' : Parses e stack cs result') :
    result = result' := by
  induction h generalizing result' with
  | lit h =>
    cases h' with
    | lit h' => rw [List.append_cancel_left (h.symm.trans h')]
    | lit_fail h' => exact absurd h (h' _)
  | lit_fail h =>
    cases h' with
    | lit h' => exact absurd h' (h _)
    | lit_fail => rfl
  | char h =>
    cases h' with
    | char => rfl
    | char_fail h' => simp [h' _ _ rfl] at h
  | char_fail h =>
    cases h' with
    | char h' => simp [h _ _ rfl] at h'
    | char_fail => rfl
  | eoi =>
    cases h'
    rfl
  | eoi_fail =>
    cases h'
    rfl
  | seq _ _ ihfirst ihsecond =>
    cases h' with
    | seq hfirst hsecond =>
      obtain rfl := Option.some.inj (ihfirst hfirst)
      rw [ihsecond hsecond]
    | seq_fail hfirst => cases ihfirst hfirst
  | seq_fail _ ihfirst =>
    cases h' with
    | seq hfirst => cases ihfirst hfirst
    | seq_fail => rfl
  | alt _ ihfirst =>
    cases h' with
    | alt hfirst => exact ihfirst hfirst
    | alt_fail hfirst => cases ihfirst hfirst
  | alt_fail _ _ ihfirst ihsecond =>
    cases h' with
    | alt hfirst => cases ihfirst hfirst
    | alt_fail _ hsecond => exact ihsecond hsecond
  | star _ _ ihfirst ihothers =>
    cases h' with
    | star hfirst hothers =>
      obtain rfl := Option.some.inj (ihfirst hfirst)
      rw [Option.some.inj (ihothers hothers)]
    | star_end hend => cases ihfirst hend
  | star_end _ ihend =>
    cases h' with
    | star hfirst => cases ihend hfirst
    | star_end => rfl
  | avoid _ ihbody =>
    cases h' with
    | avoid => rfl
    | avoid_fail hbody => cases ihbody hbody
  | avoid_fail _ ihbody =>
    cases h' with
    | avoid hbody => cases ihbody hbody
    | avoid_fail => rfl
  | push _ ihbody =>
    cases h' with
    | push hbody =>
      obtain rfl := Option.some.inj (ihbody hbody)
      rfl
    | push_fail hbody => cases ihbody hbody
  | push_fail _ ihbody =>
    cases h' with
    | push hbody => cases ihbody hbody
    | push_fail => rfl
  | peek h =>
    cases h' with
    | peek h' => rw [List.append_cancel_left (h.symm.trans h')]
    | peek_fail h' => exact absurd h (h' _ _ rfl _)
  | peek_fail h =>
    cases h' with
    | peek h' => exact absurd h' (h _ _ rfl _)
    | peek_fail => rfl
  | pop h =>
    cases h' with
    | pop h' => rw [List.append_cancel_left (h.symm.trans h')]
    | pop_fail h' => exact absurd h (h' _ _ rfl _)
  | pop_fail h =>
    cases h' with
    | pop h' => exact absurd h' (h _ _ rfl _)
    | pop_fail => rfl
  | rule _ ihbody =>
    cases h' with
    | rule hbody => rw [ihbody hbody]

end Statechart.Snippet
