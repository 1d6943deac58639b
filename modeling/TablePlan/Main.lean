import TablePlan.CommandLine.Outcome
import TablePlan.Sorter.Standard

/-!
The program: it reads the files that its arguments name, and prints and reports what
`CommandLine.outcome` answers.
-/

namespace TablePlan

def readText? (path : String) : IO (Option String) := do
  try
    return some (← IO.FS.readFile path)
  catch _ =>
    return none

def readTexts (paths : List String) : IO (List (String × String)) := do
  let texts ← paths.mapM fun path => do return (path, ← readText? path)
  return texts.filterMap fun (path, text) => text.map fun text => (path, text)

end TablePlan

open TablePlan in
def main (arguments : List String) : IO UInt32 := do
  let configPath ← IO.getEnv "TABLESMITH_CONFIG"
  let files ← readTexts (CommandLine.paths configPath arguments)
  let outcome := CommandLine.outcome .standard ⟨files, configPath⟩ arguments
  IO.print outcome.output
  IO.eprint outcome.report
  return outcome.status.toUInt32
