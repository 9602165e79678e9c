import Prototypes.CommandLine

/-!
# The program

Writes what the command line answers and exits with its code.
-/

open Prototypes in
def main (arguments : List String) : IO UInt32 := do
  let outcome := CommandLine.execute arguments
  IO.print outcome.output
  return outcome.exitCode.toUInt32
