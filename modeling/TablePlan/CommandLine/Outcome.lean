import TablePlan.CommandLine.Arguments
import TablePlan.Compile
import TablePlan.Execution
import TablePlan.Plan.Document
import TablePlan.Plan.Explain
import TablePlan.Json.Printer
import TablePlan.Settings
import TablePlan.Table.Rendering

/-!
What the program answers. The settings are read first, then the spec and the tables or their
columns; the first failure ends the run and is told from its outermost cause to the innermost.
-/

namespace TablePlan

structure Surroundings where
  files : List (String × String)
  configPath : Option String

def Surroundings.text? (s : Surroundings) (path : String) : Option String :=
  s.files.lookup path

namespace CommandLine

inductive Failure where
  | settings (path : Option String) (error : SettingsError)
  | unreadable (path : String)
  | schemas (path : String)
  | data (path : String) (error : TableError)
  | compile (path : String) (error : CompileError)
  | execution (error : ExecutionError)

namespace Failure

/-- The causes of a failure, the outermost first. The text of a cause may include that of the next
one. -/
def causes : Failure → List String
  | .settings (some path) error => [s!"loading settings from '{path}'", error.message]
  | .settings none error => ["loading settings", error.message]
  | .unreadable path => [s!"reading '{path}'", "No such file or directory (os error 2)"]
  | .schemas path => [s!"parsing schema file '{path}'", "not an object of lists of names"]
  | .data path error => [s!"loading data file '{path}'", error.message]
  | .compile path error => [s!"compiling '{path}'", error.message, error.cause]
  | .execution (.stepFailed step fault) =>
    [(ExecutionError.stepFailed step fault).message, fault.message]
  | .execution error => [error.message]

def message (f : Failure) : String :=
  "Error: " ++ Text.joined ": " f.causes

end Failure

structure Outcome where
  status : UInt8
  output : String
  report : String
  deriving DecidableEq, Repr

def read (s : Surroundings) (path : String) : Except Failure String :=
  match s.text? path with
  | some text => .ok text
  | none => .error (.unreadable path)

def settings (s : Surroundings) : (config : Option String) → Except Failure Settings
  | some path => (Settings.ofFile path (s.text? path)).mapError (.settings (some path))
  | none => (Settings.load s.configPath s.text?).mapError (.settings none)

def readSchemas (s : Surroundings) (path : String) : Except Failure Schemas := do
  match (Json.parse? (← read s path)).bind Schemas.ofJson? with
  | some schemas => return schemas
  | none => .error (.schemas path)

def readData (s : Surroundings) (path : String) : Except Failure Datasets := do
  (Datasets.load (Json.parse? (← read s path))).mapError (.data path)

def planText (plan : Plan) : OutputFormat → String
  | .text => plan.explain
  | .json => (plan.toJson Json.ofFloat).pretty 0 ++ "\n"

def tableText (name : String) (t : Table) : String :=
  s!"{name} ({t.rows.length} rows)\n" ++ t.render

/-- What a request prints, or none if a sort gives up. -/
def answer (sorter : Sorter) (s : Surroundings) (default : JoinKind) :
    Request → Except Failure (Option String)
  | .compile spec schemas format => do
    let text ← read s spec
    let schemas ← readSchemas s schemas
    let plan ← (Plan.ofText text schemas default).mapError (.compile spec)
    return some (planText plan format)
  | .run spec data => do
    let text ← read s spec
    let data ← readData s data
    let plan ← (Plan.ofText text data.schemas default).mapError (.compile spec)
    let t ← (plan.execute sorter data).mapError .execution
    return t.map (tableText plan.name)

def usageText : String :=
  "Tablesmith - compile declarative table specs into query plans\n\n" ++
  "Usage: tablesmith [OPTIONS] <COMMAND>\n\n" ++
  "Commands:\n" ++
  "  compile  Compile a spec and print its plan\n" ++
  "  run      Compile a spec and run it over in-memory tables\n" ++
  "  help     Print this message or the help of the given subcommand(s)\n\n" ++
  "Options:\n" ++
  "      --config <CONFIG>  Settings file " ++
  "(defaults to $TABLESMITH_CONFIG or ./tablesmith.toml)\n" ++
  "  -v, --verbose          Enable debug logging\n" ++
  "  -h, --help             Print help\n" ++
  "  -V, --version          Print version\n"

/-- The report of a sort that gives up, without the place in the routine that it names. -/
def disorderText : String :=
  "user-provided comparison function does not correctly implement a total order\n"

def versionText : String := "tablesmith 0.1.0\n"

end CommandLine

open CommandLine

def Invocation.outcome (sorter : Sorter) (s : Surroundings) (i : Invocation) : Outcome :=
  let answer := do
    let settings ← CommandLine.settings s i.config
    let kind ← settings.joinKind.mapError (.settings i.config)
    answer sorter s kind i.request
  match answer with
  | .ok (some output) => ⟨0, output, ""⟩
  | .ok none => ⟨101, "", disorderText⟩
  | .error failure => ⟨1, "", failure.message ++ "\n"⟩

def CommandLine.Refusal.outcome : Refusal → Outcome
  | .usage error => ⟨2, "", "error: " ++ error.message ++ "\n"⟩
  | .help => ⟨0, usageText, ""⟩
  | .version => ⟨0, versionText, ""⟩

def CommandLine.outcome (sorter : Sorter) (s : Surroundings) (arguments : List String) : Outcome :=
  match Invocation.ofArguments arguments with
  | .ok i => i.outcome sorter s
  | .error refusal => refusal.outcome

def CommandLine.paths (configPath : Option String) (arguments : List String) : List String :=
  match Invocation.ofArguments arguments with
  | .ok i =>
    let inputs := match i.request with
      | .compile spec schemas _ => [spec, schemas]
      | .run spec data => [spec, data]
    (i.config.or configPath).getD Settings.localPath :: inputs
  | .error _ => []

end TablePlan
