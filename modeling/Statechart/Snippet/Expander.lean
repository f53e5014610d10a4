import Statechart.Snippet.Piece
import Statechart.Text.Quoted
import Statechart.Text.Sorted

/-!
# Expansion of snippets

An expander replaces identifiers and calls of a snippet by texts; everything else is copied.
Comments, literals and member accesses are left alone. A replacement is expanded in turn, down to a
fixed number of levels, so an expansion that refers to itself ends in an error. A call of an unknown
function keeps its shape, and what follows its name is expanded like any other code.
-/

namespace Statechart

/-- Where an expanded snippet finds the state machine and its variables. -/
structure Context where
  /-- The expression for the state machine. -/
  machine : String := "self"
  /-- The text in front of the name of a variable. -/
  varsPath : String := "self.vars."
deriving DecidableEq, Repr

namespace Snippet

/-- What an identifier stands for. -/
inductive Variable where
  /-- A fixed text. -/
  | text (replacement : String)
  /-- The variable of the state machine with that name. -/
  | field (name : String)
deriving DecidableEq, Repr

/-- The text an identifier stands for. -/
def Variable.replacement (ctx : Context) : Variable → String
  | text replacement => replacement
  | field name => ctx.varsPath ++ name

/-- What a call stands for; the body gets the expanded arguments and fails when it
needs more of them. -/
structure Function where
  arity : Nat
  body : List String → Option String

/-- A part of a function body: a text, or the argument at a position. -/
inductive Segment where
  | text (s : String)
  | argument (position : Nat)
deriving DecidableEq, Repr

/-- The text of a segment for the given arguments. -/
def Segment.fill (args : List String) : Segment → Option String
  | text s => some s
  | argument position => args[position]?

/-- The concatenation of segments as a function body. -/
def Function.ofSegments (arity : Nat) (segments : List Segment) : Function :=
  ⟨arity, fun args => (segments.mapM (Segment.fill args)).map String.join⟩

/-- The replacements for identifiers and calls, each name at most once. -/
structure Expander where
  vars : List (String × Variable) := []
  functions : List (String × Function) := []

/-- Why a snippet could not be expanded. -/
inductive ExpansionError where
  | wrongArgCount (name : String) (expected found : Nat)
  | unterminated (name : String)
  | recursionLimit (name : String)
  /-- A function body asked for an argument beyond its arity. -/
  | missingArgument (name : String)
deriving DecidableEq, Repr

/-- The wording of an expansion error. -/
def ExpansionError.message : ExpansionError → String
  | wrongArgCount name expected found =>
    s!"`{name}` expects {expected} argument(s) but was given {found}"
  | unterminated name => s!"Call to `{name}` is missing its closing parenthesis"
  | recursionLimit name => s!"Expansion of `{name}` nests too deeply (is it recursive?)"
  | missingArgument name => s!"Expansion of `{name}` needs an argument that it does not take"

namespace Expander

/-- Bind a name, replacing an earlier binding. -/
def bindName {α : Type} (name : String) (value : α) (entries : List (String × α)) :
    List (String × α) :=
  (name, value) :: entries.filter fun entry => entry.1 != name

/-- Replace the identifier `name` by a text. -/
def addVariable (x : Expander) (name text : String) : Expander :=
  { x with vars := bindName name (.text text) x.vars }

/-- Replace the identifier `name` by the variable of the machine with that name. -/
def addField (x : Expander) (name : String) : Expander :=
  { x with vars := bindName name (.field name) x.vars }

/-- Replace calls of `name`. -/
def addFunction (x : Expander) (name : String) (function : Function) : Expander :=
  { x with functions := bindName name function x.functions }

/-- Whether the name is replaced, as an identifier or in calls. -/
def binds (x : Expander) (name : String) : Bool :=
  (x.vars.lookup name).isSome || (x.functions.lookup name).isSome

/-- A list of quoted names in brackets. -/
def quotedList (names : List String) : String :=
  "[" ++ String.intercalate ", " (names.map Text.quoted) ++ "]"

/-- A summary of the names that are replaced. -/
def summary (x : Expander) : String :=
  "Expander \x7b variables: " ++ quotedList (Text.sortedSet (x.vars.map (·.1))) ++
    ", functions: " ++ quotedList (Text.sortedSet (x.functions.map (·.1))) ++ " \x7d"

/-- The arguments of a call as they are handed over: trimmed, without an empty last one. -/
def givenArgs (args : List (List Char)) : List (List Char) :=
  let trimmed := args.map Text.trimChars
  if trimmed.getLast? = some [] then trimmed.dropLast else trimmed

/-- How an expansion one level deeper is done: the name it is for, and the text. -/
abbrev Deeper := String → List Char → Except ExpansionError (List Char)

/-- The expansion of an identifier. -/
def expandName (x : Expander) (ctx : Context) (deeper : Deeper) (name : List Char) :
    Except ExpansionError (List Char) :=
  match x.vars.lookup (String.ofList name) with
  | some v => deeper (String.ofList name) (v.replacement ctx).toList
  | none => .ok name

/-- The expansion of a call of a known function. -/
def applyFunction (deeper : Deeper) (function : Function) (call : Call) :
    Except ExpansionError (List Char) := do
  let name := String.ofList call.name
  let given := givenArgs call.args
  if given.length ≠ function.arity then
    throw (.wrongArgCount name function.arity given.length)
  let args ← given.mapM (deeper name)
  match function.body (args.map String.ofList) with
  | some body => deeper name body.toList
  | none => throw (.missingArgument name)

/-- The expansion of a text, piece by piece. -/
def expandPieces (x : Expander) (ctx : Context) (deeper : Deeper) :
    List Char → Except ExpansionError (List Char)
  | [] => .ok []
  | c :: rest =>
    let following := rest.drop ((firstPiece c rest).text.length - 1)
    let first := match hpiece : firstPiece c rest with
      | .call call =>
        match x.functions.lookup (String.ofList call.name) with
        | some function => applyFunction deeper function call
        | none => do
          let name ← expandName x ctx deeper call.name
          have := firstPiece_call_tail_length_lt hpiece
          let tail ← expandPieces x ctx deeper call.tail
          pure (name ++ tail)
      | .leaf .ident name =>
        if (x.functions.lookup (String.ofList name)).isSome &&
            (Text.trimStart following).head? == some '(' then
          .error (.unterminated (String.ofList name))
        else expandName x ctx deeper name
      | .leaf _ text => .ok text
    do
      let head ← first
      let others ← expandPieces x ctx deeper following
      pure (head ++ others)
termination_by cs => cs.length
decreasing_by
  · assumption
  · simp only [List.length_drop, List.length_cons]
    omega

/-- The number of levels of replacement below a snippet. -/
def maxDepth : Nat := 32

/-- The expansion of a text that stands for `name`, with so many levels left. -/
def expandAt (x : Expander) (ctx : Context) : Nat → Deeper
  | 0, name, _ => .error (.recursionLimit name)
  | levels + 1, _, cs => expandPieces x ctx (expandAt x ctx levels) cs

/-- The expansion of a snippet. -/
def expand (x : Expander) (ctx : Context) (code : String) : Except ExpansionError String :=
  (expandAt x ctx (maxDepth + 1) (Text.trim code) code.toList).map String.ofList

end Expander

end Snippet

end Statechart
