import Statechart.Code.Page
import Statechart.Document.Record
import Statechart.Json.Reader
import Statechart.Snippet.Expander
import Statechart.Text.Alphanumeric

/-!
# Render configurations

What the user adds to the generated file: a text at its top, variables of the machine, and the
indentation. Variables that are declared one to a line as `name: Type` can be used in guards and
actions by their names alone.
-/

namespace Statechart

open Json (Value)

/-- The settings for a generated file. -/
structure Config where
  /-- Copied below the first line of the file. -/
  fileTop : String := ""
  /-- Declarations copied into the variables of the machine. -/
  variableDeclarations : String := ""
  /-- Declarations of variables that are expanded by name, one to a line. -/
  autoExpandedVars : String := ""
  /-- One level of indentation. -/
  indent : String := "    "
deriving DecidableEq, Repr

/-- A variable that is expanded by its name. -/
structure AutoVar where
  name : String
  type : String
deriving DecidableEq, Repr

/-- A line that does not declare a variable. -/
structure AutoVarError where
  line : Nat
  text : String
deriving DecidableEq, Repr

/-- The wording for a line that does not declare a variable. -/
def AutoVarError.message (e : AutoVarError) : String :=
  "Invalid auto expanded variable on line " ++ toString e.line ++ ": `" ++ e.text ++
    "` (expected `name: Type`)"

namespace AutoVar

/-- The declaration of a variable as a public field. -/
def field (var : AutoVar) : String := "pub " ++ var.name ++ ": " ++ var.type ++ ","

/-- The text without as many leading `pub ` as there are. -/
def dropPub : List Char → List Char
  | 'p' :: 'u' :: 'b' :: ' ' :: rest => dropPub rest
  | cs => cs

/-- The declaration in a line, without marks of visibility and of its end. -/
def core (line : List Char) : List Char :=
  Text.trimChars ((dropPub line).reverse.dropWhile fun c => c == ',' || c == ';').reverse

/-- Whether the text is the name of a variable. -/
def isName : List Char → Bool
  | [] => false
  | c :: rest => (Text.isAlphabetic c || c == '_') && (c :: rest).all Text.isWordChar

/-- The variable that a trimmed line declares. -/
def ofLine (line : List Char) : Option AutoVar :=
  let declaration := core line
  let name := Text.trimChars (declaration.takeWhile (· != ':'))
  let type := Text.trimChars (declaration.dropWhile (· != ':')).tail
  if declaration.contains ':' && isName name && !type.isEmpty then
    some ⟨String.ofList name, String.ofList type⟩
  else none

/-- Whether a trimmed line declares nothing: it is empty or a comment. -/
def isSkipped (line : List Char) : Bool := line.isEmpty || ['/', '/'].isPrefixOf line

/-- The variables of lines that start with the given number. -/
def ofLines (number : Nat) : List (List Char) → Except AutoVarError (List AutoVar)
  | [] => .ok []
  | raw :: rest =>
    let line := Text.trimChars raw
    if isSkipped line then ofLines (number + 1) rest
    else
      match ofLine line with
      | some var => (ofLines (number + 1) rest).map (var :: ·)
      | none => .error ⟨number, String.ofList raw⟩

end AutoVar

namespace Config

/-- Read a configuration. -/
def ofValue (value : Value) : Option Config := do
  match ← value.record ["file_top", "variable_declarations", "auto_expanded_vars", "indent"] with
  | [fileTop, variableDeclarations, autoExpandedVars, indent] =>
    pure {
      fileTop := ← Value.orElse? "" Value.text? fileTop
      variableDeclarations := ← Value.orElse? "" Value.text? variableDeclarations
      autoExpandedVars := ← Value.orElse? "" Value.text? autoExpandedVars
      indent := ← Value.orElse? "    " Value.text? indent }
  | _ => none

/-- Read the text of a configuration. -/
def parse (text : String) : Option Config := (Json.parse text).bind ofValue

/-- The style of the generated file. -/
def style (config : Config) : Style := { indent := config.indent }

/-- The variables that are expanded by name. -/
def autoVars (config : Config) : Except AutoVarError (List AutoVar) :=
  AutoVar.ofLines 1 (Text.lines config.autoExpandedVars.toList)

/-- Whether the machine has variables. -/
def hasVars (config : Config) : Bool :=
  !Text.isBlank config.variableDeclarations.toList || !Text.isBlank config.autoExpandedVars.toList

/-- The expander that knows the given variables. -/
def expanderFor (vars : List AutoVar) : Snippet.Expander :=
  vars.foldl (fun x var => x.addField var.name) {}

/-- The expander that knows the variables of the configuration. -/
def expander (config : Config) : Except AutoVarError Snippet.Expander :=
  config.autoVars.map expanderFor

end Config

end Statechart
