import Statechart.Cli

/-!
# The program

Runs the command line on the real file system. A failure of the system is shown by its text and its
number.
-/

namespace Statechart

/-- A failure of the system. -/
def systemFailure (text : String) (number : UInt32) : String :=
  text ++ " (os error " ++ toString number ++ ")"

/-- How a failure to read or write a file is shown. -/
def failureText : IO.Error → String
  | .noFileOrDirectory .. => systemFailure "No such file or directory" 2
  | .inappropriateType _ number text => systemFailure text number
  | .permissionDenied _ number text => systemFailure text number
  | .resourceExhausted _ number text => systemFailure text number
  | .invalidArgument _ number text => systemFailure text number
  | e => toString e

/-- The file system of the host. -/
def hostFiles : Cli.Files IO where
  read path := do
    try
      pure (.ok (← IO.FS.readFile path))
    catch e => pure (.error (failureText e))
  write path text := do
    try
      pure (.ok (← IO.FS.writeFile path text))
    catch e => pure (.error (failureText e))

end Statechart

/-- Run the command line and show its outcome. -/
def main (args : List String) : IO UInt32 := do
  let outcome ← Statechart.Cli.run Statechart.hostFiles args
  IO.eprint outcome.errors
  IO.print outcome.output
  pure outcome.status.toUInt32
