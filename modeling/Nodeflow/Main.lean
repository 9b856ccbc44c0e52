import Nodeflow.CommandLine
import Nodeflow.Runner

/-!
# The program

Runs the tree that the command line names. What the run gives is printed; a failure is reported on
the error stream.
-/

namespace Nodeflow

def readContent (path : String) : IO FileContent :=
  try
    return some (← IO.FS.readBinFile path)
  catch _ => return none

def CommandLine.mode (c : CommandLine) : Mode :=
  if c.dot then .dot else if c.program then .program else .call

/-- Carries out a command line; gives the exit code. -/
def CommandLine.run (c : CommandLine) : IO UInt32 := do
  let tree ← readContent c.tree
  let config ← c.config.mapM readContent
  match (runFiles tree config c.mode c.inputs).run with
  | .ok (.ok output) =>
    IO.print output
    return 0
  | .ok (.error e) =>
    IO.eprintln e.message
    return 1
  | .error fault =>
    IO.eprintln fault.message
    return 101

end Nodeflow

def main (args : List String) : IO UInt32 := do
  match Nodeflow.CommandLine.parse args with
  | .ok c => c.run
  | .error e =>
    IO.eprintln e.name
    return 2
