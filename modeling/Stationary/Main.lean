import Stationary.Command

/-!
# The program

Reads the arguments, runs the command and prints its lines. Log lines go to standard
error with their source and level in front.
-/

namespace Stationary.Command

/-- The text of a line on standard error. -/
def errorText : ErrorLine → String
  | .text s => s
  | .log source line =>
    source.name ++ " " ++ line.level.name ++ ": " ++ line.message
  | .overflow => "RuntimeWarning: overflow encountered in cast"

/-- Prints the result of a command and returns its exit code. -/
def present (r : Result) : IO UInt32 := do
  for line in r.output do
    IO.println line.message
  for line in r.errors do
    IO.eprintln (errorText line)
  return r.exitCode.toUInt32

end Stationary.Command

open Stationary Command in
/-- The command on the arguments of the process. -/
def main (arguments : List String) : IO UInt32 :=
  match execute pageWidth arguments with
  | .ok r => present r
  | .error e => do
    IO.eprintln e.message
    return 1
