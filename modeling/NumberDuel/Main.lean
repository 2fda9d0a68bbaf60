import NumberDuel.CommandLine
import NumberDuel.Journal

/-!
# The program

Reads the arguments, prints what the run prints, and ends with 0, with 1 where the run could not
go on, or with 2 where the arguments were refused.
-/

namespace NumberDuel.CommandLine

def usage : String := "usage: [-h] [--runs RUNS] [--seed SEED] [--detailed DETAILED] [--verbose]"

def report (printed : Printed Unit) : IO UInt32 := do
  IO.print printed.output
  match printed.result with
  | .ok () => return 0
  | .error e =>
    IO.eprintln e.message
    return 1

end NumberDuel.CommandLine

open NumberDuel in
def main (args : List String) : IO UInt32 := do
  match CommandLine.request args with
  | .help =>
    IO.println CommandLine.usage
    return 0
  | .refused =>
    IO.eprintln CommandLine.usage
    return 2
  | .run options =>
    let seed ← IO.rand 0 (Nat.pow 2 32 - 1)
    CommandLine.report (CommandLine.run options seed 0)
