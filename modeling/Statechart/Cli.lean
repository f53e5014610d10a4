import Statechart.Compile.File
import Statechart.Document.Build
import Statechart.Document.Reader

/-!
# The command line

The command line reads a model and perhaps a configuration, and writes the generated file, or shows
it. What it does is a function of its arguments and of the files it meets, which are reached through
an interface.
-/

namespace Statechart.Cli

/-- How files are reached. A failure is given by its text. -/
structure Files (μ : Type → Type) where
  read : String → μ (Except String String)
  write : String → String → μ (Except String Unit)

/-- What was asked for. -/
structure Options where
  model : String
  config : Option String := none
  out : Option String := none
deriving DecidableEq, Repr

/-- Arguments that make no sense. -/
inductive UsageError where
  | valueMissing (flag : String)
  | unknownOption (flag : String)
  | unexpectedArgument (argument : String)
  | modelMissing
deriving DecidableEq, Repr

/-- The wording of a usage error. -/
def UsageError.message : UsageError → String
  | valueMissing flag => flag ++ " needs a file name"
  | unknownOption flag => "Unknown option '" ++ flag ++ "'"
  | unexpectedArgument argument => "Unexpected argument '" ++ argument ++ "'"
  | modelMissing => "Missing model file"

/-- Read arguments, given what the ones before have set. -/
def readArgs (model config out : Option String) : List String → Except UsageError Options
  | [] =>
    match model with
    | some model => .ok ⟨model, config, out⟩
    | none => .error .modelMissing
  | arg :: rest =>
    if arg == "--config" || arg == "-c" then
      match rest with
      | path :: rest => readArgs model (some path) out rest
      | [] => .error (.valueMissing "--config")
    else if arg == "--out" || arg == "-o" then
      match rest with
      | path :: rest => readArgs model config (some path) rest
      | [] => .error (.valueMissing "--out")
    else if arg.toList.head? == some '-' then .error (.unknownOption arg)
    else if model.isNone then readArgs (some arg) config out rest
    else .error (.unexpectedArgument arg)

/-- What a run shows, and its exit status. -/
structure Outcome where
  status : Nat := 0
  output : String := ""
  errors : String := ""
deriving DecidableEq, Repr

/-- How the program is used. -/
def usage : String :=
  "Oxichart CLI - Statechart Compiler\n" ++
  "Usage: oxichart-cli <model.json> [--config <render.json>] [--out <file.rs>]\n\n" ++
  "Example: oxichart-cli blinky.json --out src/blinky_sm.rs\n"

/-- A message about something that went wrong. -/
def complaint (message : String) : String := "❌ " ++ message ++ "\n"

/-- A run that ends with a message. -/
def failed (message : String) : Outcome := { status := 1, errors := complaint message }

/-- A file that could not be loaded. -/
def notLoaded (path reason : String) : Outcome :=
  failed ("Could not load '" ++ path ++ "': " ++ reason)

/-- The model in the text of a file. -/
def modelOf (path : String) : Except String String → Except Outcome ModelDoc
  | .error e => .error (notLoaded path ("Could not read model document: " ++ e))
  | .ok text =>
    match ModelDoc.parse text with
    | some model => .ok model
    | none => .error (notLoaded path "Invalid model document: the text does not describe a model")

/-- The configuration in the text of a file. -/
def configOf (path : String) : Except String String → Except Outcome Config
  | .error e => .error (notLoaded path ("Could not read render config: " ++ e))
  | .ok text =>
    match Config.parse text with
    | some config => .ok config
    | none =>
      .error (notLoaded path "Invalid render config: the text does not describe a configuration")

/-- The outcome when no file is generated. -/
def notGenerated (m : Machine) : CompileError → Outcome
  | .invalid problems =>
    { status := 1
      errors := String.join (problems.map fun p => "  - " ++ p.message m ++ "\n") ++
        complaint (toString problems.length ++ " validation problem(s)") }
  | e => failed (e.message m)

/-- The generated file for a model. -/
def compile (model : ModelDoc) (config : Config) : Except Outcome String :=
  match model.build with
  | .error e => .error (failed e.message)
  | .ok m => (m.generate config).mapError (notGenerated m)

/-- Show the generated file, or write it. -/
def deliver {μ : Type → Type} [Monad μ] (files : Files μ) (out : Option String) (code : String) :
    μ Outcome := do
  match out with
  | none => pure { output := code }
  | some path =>
    match ← files.write path code with
    | .ok () => pure { output := "✅ Generated " ++ path ++ "\n" }
    | .error e => pure (failed ("Could not write '" ++ path ++ "': " ++ e))

/-- The configuration that was asked for. -/
def loadConfig {μ : Type → Type} [Monad μ] (files : Files μ) :
    Option String → μ (Except Outcome Config)
  | none => pure (.ok {})
  | some path => do pure (configOf path (← files.read path))

/-- Do what was asked for. -/
def perform {μ : Type → Type} [Monad μ] (files : Files μ) (options : Options) : μ Outcome := do
  match modelOf options.model (← files.read options.model) with
  | .error outcome => pure outcome
  | .ok model =>
    match ← loadConfig files options.config with
    | .error outcome => pure outcome
    | .ok config =>
      match compile model config with
      | .error outcome => pure outcome
      | .ok code => deliver files options.out code

/-- Run the program with the given arguments. -/
def run {μ : Type → Type} [Monad μ] (files : Files μ) (args : List String) : μ Outcome :=
  if args.isEmpty then pure { output := usage }
  else
    match readArgs none none none args with
    | .error e => pure { status := 2, output := usage, errors := complaint e.message }
    | .ok options => perform files options

end Statechart.Cli
